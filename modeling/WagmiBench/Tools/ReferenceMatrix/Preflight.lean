import WagmiBench.Tools.ReferenceMatrix.Discipline
import WagmiBench.Tools.ReferenceMatrix.Execute

/-!
# What an invocation knows

The routines of `execute_matrix` that buy nothing, verified against the discipline of the output root:
what they publish is theirs alone, and the evidence they return is there to stay.
-/

namespace WagmiBench.Tools.ReferenceMatrix

open WagmiBench.Lib WagmiBench.Core WagmiBench.Spec WagmiBench.Harness
open World
open RelyGuarantee (Yields)

/-! ## Quiet and harmless routines -/

section All

variable {β : Type} {M : Request β → Prop} {sha : Sha256} {limits : Json.Limits} {readers : Readers β}
  {settings : MatrixSettings} {a : Artifact}

/-- Every request of the routine satisfies `M`. -/
abbrev Asks {α : Type} (M : Request β → Prop) (p : Run β α) : Prop :=
  Process.All (I := requests β) M p

theorem asks_ask {r : Request β} (h : M r) : Asks M (ask r) := ⟨h, fun _ => trivial⟩

theorem asks_ofExcept {α : Type} (x : Except MatrixExc α) : Asks M (.ofExcept x : Run β α) :=
  Process.all_ofExcept x

theorem asks_liftOs {α : Type} (x : Except OsError α) : Asks M (liftOs x : Run β α) :=
  Process.all_ofExcept _

theorem asks_refuse {α : Type} (message : String) : Asks M (refuse message : Run β α) := trivial

theorem fsyncDirectory_quiet (f : Folder) : Asks (β := β) Request.Quiet (fsyncDirectory f) := by
  refine .bind (asks_ask trivial) fun answer => ?_
  cases answer with
  | ok u => exact .bind (asks_ask trivial) fun _ => asks_liftOs _
  | error e => trivial

theorem ensureDirectory_quiet (f : Folder) : Asks (β := β) Request.Quiet (ensureDirectory f) := by
  refine .bind (asks_ask trivial) fun answer => ?_
  cases answer <;> trivial

theorem expectBytes_quiet (expected : Bytes) (label : String) :
    Asks (β := β) Request.Quiet (expectBytes a expected label) := by
  refine .bind (asks_ask trivial) fun found => ?_
  cases found with
  | false => trivial
  | true =>
    refine .bind (asks_ask trivial) fun answer => ?_
    cases answer with
    | error e => trivial
    | ok actual =>
      simp only
      split <;> trivial

theorem readAuthorization_quiet (what : String) :
    Asks (β := β) Request.Quiet (readAuthorization what) := by
  refine .bind (asks_ask trivial) fun found => ?_
  cases found with
  | false => trivial
  | true => exact .bind (asks_ask trivial) fun _ => asks_liftOs _

theorem packAttempt_quiet (plan : PackPlan) :
    Asks (β := β) Request.Quiet (packAttempt sha settings plan) :=
  .bind (readAuthorization_quiet _) fun _ => asks_ofExcept _

theorem smokeAttempt_quiet (smokePlan : SmokePlan) :
    Asks (β := β) Request.Quiet (smokeAttempt sha settings smokePlan) :=
  .bind (readAuthorization_quiet _) fun _ => asks_ofExcept _

theorem loadCanonicalObject_quiet : Asks (β := β) Request.Quiet (loadCanonicalObject limits a) := by
  refine .bind (asks_ask trivial) fun found => ?_
  cases found with
  | false => trivial
  | true =>
    exact .bind (asks_ask trivial) fun _ => .bind (asks_liftOs _) fun _ => asks_ofExcept _

theorem preflightOutputLayout_quiet : Asks (β := β) Request.Quiet preflightOutputLayout := by
  refine .bind (asks_ask trivial) fun found => ?_
  cases found with
  | false => trivial
  | true =>
    refine .bind (asks_ask trivial) fun litter => ?_
    cases litter with
    | true => trivial
    | false =>
      refine Process.all_forM fun f => .bind (asks_ask trivial) fun found => ?_
      cases found with
      | false => trivial
      | true =>
        refine .bind (asks_ask trivial) fun litter => ?_
        cases litter <;> trivial

theorem anyPresent_quiet (files : List Artifact) : Asks (β := β) Request.Quiet (anyPresent files) := by
  induction files with
  | nil => trivial
  | cons a files ih =>
    refine .bind (asks_ask trivial) fun found => ?_
    cases found with
    | true => trivial
    | false => exact ih

theorem paidEvidenceExists_quiet : Asks (β := β) Request.Quiet paidEvidenceExists :=
  .bind (anyPresent_quiet _) fun _ => .bind (asks_ask trivial) fun _ => .bind (asks_ask trivial)
    fun _ => trivial

theorem preflightAuthorization_quiet (plans : List PackPlan) (smokePlan : SmokePlan) :
    Asks (β := β) Request.Quiet (preflightAuthorization sha settings plans smokePlan) := by
  refine .bind (asks_ofExcept _) fun bytes => .bind (expectBytes_quiet _ _) fun found =>
    .bind paidEvidenceExists_quiet fun paid => ?_
  split <;> trivial

theorem validateReportDirectory_quiet (plan : PackPlan) (artifacts : ReportArtifacts) :
    Asks (β := β) Request.Quiet (validateReportDirectory plan artifacts) := by
  refine .bind (asks_ask trivial) fun found => ?_
  cases found with
  | false => trivial
  | true =>
    refine .bind (Process.all_mapM fun _ => asks_ask trivial) fun names =>
      .bind (asks_ask trivial) fun litter => ?_
    split
    · trivial
    · exact .bind (Process.all_forM fun _ => .bind (expectBytes_quiet _ _) fun _ => trivial)
        fun _ => trivial

theorem orphanChecks_quiet (plan : PackPlan) : Asks (β := β) Request.Quiet (orphanChecks plan) := by
  refine .bind (asks_ask trivial) fun found => ?_
  cases found with
  | true => trivial
  | false =>
    refine .bind (asks_ask trivial) fun found => ?_
    cases found <;> trivial

theorem preflightAggregate_quiet (plans : List PackPlan) (smokeEvidence : Option SmokeEvidence)
    (evidence : Evidence) :
    Asks Request.Quiet (preflightAggregate readers settings plans smokeEvidence evidence) := by
  refine .bind (asks_ask trivial) fun found => ?_
  cases found with
  | false => trivial
  | true =>
    cases smokeEvidence with
    | none => trivial
    | some smoke =>
      rw [if_pos rfl]
      simp only
      split
      · trivial
      · split
        · trivial
        · exact .bind (asks_ofExcept _) fun _ => .bind (asks_ofExcept _) fun _ =>
            .bind (expectBytes_quiet _ _) fun _ => trivial

theorem leaveSandbox_quiet {α : Type} (outcome : Except MatrixExc α) :
    Asks (β := β) Request.Quiet (leaveSandbox outcome) := by
  refine .bind (asks_ask trivial) fun answer => ?_
  cases answer <;> trivial

/-! ### Routines that publish -/

theorem Asks.harmless {α : Type} {p : Run β α} (h : Asks Request.Quiet p) :
    Asks Request.Harmless p :=
  h.mono fun _ hr => hr.harmless

theorem writeNew_harmless (data : Bytes) : Asks (β := β) Request.Harmless (writeNew a data) := by
  refine .bind (asks_ask trivial) fun found => ?_
  cases found with
  | true => trivial
  | false =>
    refine .bind (ensureDirectory_quiet _).harmless fun _ => .bind (.attempt ?_) fun _ =>
      .bind (asks_ask trivial) fun _ => .bind (asks_liftOs _) fun _ => asks_ofExcept _
    exact .bind (asks_ask trivial) fun _ => .bind (asks_liftOs _) fun _ =>
      .bind (asks_ask trivial) fun _ => .bind (asks_liftOs _) fun _ =>
        (fsyncDirectory_quiet _).harmless

theorem publishOnce_harmless (expected : Bytes) (label : String) :
    Asks (β := β) Request.Harmless (publishOnce a expected label) := by
  refine .bind (expectBytes_quiet _ _).harmless fun found => ?_
  cases found with
  | true => trivial
  | false => exact writeNew_harmless _

theorem materializeEstimates_harmless (plans : List PackPlan) (smokePlan : SmokePlan) :
    Asks (β := β) Request.Harmless (materializeEstimates sha settings plans smokePlan) :=
  .bind (asks_ofExcept _) fun _ => .bind (publishOnce_harmless _ _) fun _ =>
    .bind (asks_ofExcept _) fun _ => .bind (publishOnce_harmless _ _) fun _ =>
      Process.all_forM fun _ => .bind (asks_ofExcept _) fun _ => publishOnce_harmless _ _

theorem materializeSmokeFailure_harmless (smokePlan : SmokePlan) (reason : String)
    (httpStatus : Option ℤ) (responseBytes : Option Bytes) :
    Asks Request.Harmless
      (materializeSmokeFailure sha readers settings smokePlan reason httpStatus responseBytes) := by
  have rest : Asks Request.Harmless (do
      let attempt ← smokeAttempt (β := β) sha settings smokePlan
      let usage := responseBytes.bind (readers.unvalidatedSmokeUsage settings)
      let receipt ← .ofExcept (smokeFailureReceipt sha settings smokePlan attempt reason httpStatus
        responseBytes usage >>= canonical)
      writeNew .smokeFailureReceipt receipt) :=
    .bind (smokeAttempt_quiet _).harmless fun _ => .bind (asks_ofExcept _) fun _ =>
      writeNew_harmless _
  cases responseBytes with
  | none => exact rest
  | some bytes => exact .bind (writeNew_harmless _) fun _ => rest

end All

/-! ## Publishing a receipt -/

section Fresh

variable {ι β : Type} {i : ι} {a : Artifact} {w w' : World ι β}

/-- `i` published the file, and nothing was bought or recorded on its strength yet. -/
structure Fresh (i : ι) (a : Artifact) (w : World ι β) : Prop where
  author : w.Author i a
  unbought : ∀ what, what.attempt = a → ¬ w.Bought what
  unrecorded : ∀ p, a = .attempt p → w.bundles p = none

theorem Fresh.keeps (h : Fresh i a w) (hw : Keeps i w w') : Fresh i a w' where
  author := h.author.grows hw.toGrows
  unbought what ha hb := h.unbought what ha (hw.unbought what (ha ▸ h.author) hb)
  unrecorded p ha := (hw.untouched p (ha ▸ h.author)).trans (h.unrecorded p ha)

theorem Fresh.same (h : Fresh i a w) (hw : SameEvidence w w') : Fresh i a w' where
  author := h.author.grows hw.grows
  unbought what ha hb := by
    rw [Bought, hw.purchases] at hb
    exact h.unbought what ha hb
  unrecorded p ha := by
    rw [hw.bundles]
    exact h.unrecorded p ha

/-- Where there was no file there was no purchase on its strength. -/
theorem fresh_publish {data : Bytes} (hw : w.Consistent) (ha : w.files a = none) :
    Fresh i a (w.publish a ⟨data, i⟩) := by
  have absent : ∀ what, what.attempt = a → ¬ w.Bought what := by
    rintro what rfl hb
    obtain ⟨j, bytes, hfile⟩ := hw.author hb
    rw [ha] at hfile
    cases hfile
  refine ⟨⟨data, Function.update_self _ _ _⟩, absent, ?_⟩
  rintro p rfl
  by_contra hne
  exact absent (.pack p) rfl (hw.paid p hne)

theorem stored_publish {data : Bytes} : (w.publish a ⟨data, i⟩).Stored a data :=
  Option.map_eq_some_iff.mpr ⟨_, Function.update_self _ _ _, rfl⟩

end Fresh

section Specs

variable {ι β : Type} [DecidableEq ι] {claim : ι → PackId → World ι β → Prop} {i : ι}
  {w : World ι β} {F : World ι β → Prop} {sha : Sha256} {limits : Json.Limits}
  {readers : Readers β} {settings : MatrixSettings} {plans : List PackPlan} {smokePlan : SmokePlan}
  {plan : PackPlan} {a : Artifact}

/-- What the growth of the evidence keeps may be carried along any routine that keeps to the
discipline. -/
theorem yields_frame {α : Type} {p : Run β α} {P : α → World ι β → Prop}
    (h : (discipline claim).Yields i p P w) (hF : ∀ w w', Grows w w' → F w → F w') (hw : F w) :
    (discipline claim).Yields i p (fun a w' => P a w' ∧ F w') w :=
  h.frame (fun w w' hkeeps => hF w w' hkeeps.toGrows) (fun w w' hacts => hF w w' hacts.toGrows) hw

theorem yields_ofExcept {α : Type} {x : Except MatrixExc α} (hF : ∀ w w', Grows w w' → F w → F w')
    (hw : F w) : (discipline claim).Yields i (.ofExcept x : Run β α) (fun a w' => x = .ok a ∧ F w') w :=
  .ofExcept fun _ w' hx (hkeeps : Keeps i w w') _ => ⟨hx, hF w w' hkeeps.toGrows hw⟩

/-- A harmless routine, of which nothing needs to be known. -/
theorem yields_any {α : Type} {p : Run β α} (hall : Asks Request.Harmless p) :
    (discipline claim).Yields i p (fun _ _ => True) w :=
  yields_harmless hall (fun _ _ _ _ => trivial) trivial

/-- A file that is published is fresh. -/
theorem publish_yields (data : Bytes) :
    (discipline claim).Yields i (publish a data) (fun _ w' => Fresh i a w' ∧ w'.Stored a data) w := by
  have hlink : ∀ w, (discipline claim).Yields i (ask (.link a data))
      (fun answer w' => answer = .ok () → Fresh i a w' ∧ w'.Stored a data) w := by
    refine fun w => .ask fun w₁ _ hinv => ⟨Request.Harmless.due (r := .link a data) trivial w₁, fun answer w₂ heffect => ?_⟩
    obtain ⟨hacts, hinv₂⟩ := Request.Harmless.acts (r := .link a data) trivial hinv heffect
    refine ⟨hacts, hinv₂, fun w₃ hkeeps _ hanswer => ?_⟩
    rcases heffect with ⟨ha, -, rfl⟩ | ⟨herror, -⟩ | ⟨herror, -⟩
    · exact ⟨(fresh_publish hinv ha).keeps hkeeps, stored_publish.grows hkeeps.toGrows⟩
    · cases herror.symm.trans hanswer
    · cases herror.symm.trans hanswer
  refine .bind (yields_any (asks_ask trivial)) fun staged _ _ =>
    .bind (yields_any (asks_liftOs staged)) fun _ w₁ _ => .bind (hlink w₁) fun answer w₂ h => ?_
  cases answer with
  | error e => exact .raise
  | ok u =>
    refine yields_quiet (fsyncDirectory_quiet _) ?_ ?_ (h rfl)
    · exact fun _ _ hsame h => ⟨h.1.same hsame, h.2.grows hsame.grows⟩
    · exact fun _ _ hkeeps h => ⟨h.1.keeps hkeeps, h.2.grows hkeeps.toGrows⟩

/-- So is a file that `_write_new` wrote. -/
theorem writeNew_yields (data : Bytes) :
    (discipline claim).Yields i (writeNew a data) (fun _ w' => Fresh i a w' ∧ w'.Stored a data) w := by
  refine .bind (yields_any (asks_ask trivial)) fun found w₁ _ => ?_
  cases found with
  | true => exact .raise
  | false =>
    refine .bind (yields_any (ensureDirectory_quiet _).harmless) fun _ w₂ _ => ?_
    have hpublished : (discipline claim).Yields i (publish a data).attempt
        (fun outcome w' => (∃ u, outcome = .ok u) → Fresh i a w' ∧ w'.Stored a data) w₂ :=
      .attempt (publish_yields data) (fun _ _ h _ => h) fun _ _ h => by
        obtain ⟨_, h⟩ := h
        cases h
    refine .bind hpublished fun outcome w₃ h => ?_
    cases outcome with
    | error e =>
      exact .bind (yields_any (asks_ask trivial)) fun _ _ _ =>
        .bind (yields_any (asks_liftOs _)) fun _ _ _ => .raise
    | ok u =>
      refine yields_quiet ?_ ?_ ?_ (h ⟨u, rfl⟩)
      · exact .bind (asks_ask trivial) fun _ => .bind (asks_liftOs _) fun _ => asks_ofExcept _
      · exact fun _ _ hsame h => ⟨h.1.same hsame, h.2.grows hsame.grows⟩
      · exact fun _ _ hkeeps h => ⟨h.1.keeps hkeeps, h.2.grows hkeeps.toGrows⟩

end Specs

/-! ## What an invocation knows -/

section Knowledge

variable {ι β : Type} {sha : Sha256} {limits : Json.Limits} (readers : Readers β)
  (settings : MatrixSettings)

/-- The response is one whose usage the invocation reads, and whose cost is the receipt's. -/
def SmokePriced (smokePlan : SmokePlan) (e : SmokeEvidence) : Prop :=
  ∃ usage, readers.smokeUsage settings smokePlan e.responseBytes = .ok usage ∧
    smokeActualCost e.receipt = usage.costUsd

/-- The smoke call's response is published, with its price. -/
def SmokeSeen (smokePlan : SmokePlan) (e : SmokeEvidence) (w : World ι β) : Prop :=
  w.Stored .smokeResponse e.responseBytes ∧ SmokePriced readers settings smokePlan e

/-- The pack's bundle is sealed, and the receipt accounts for what it cost at most. -/
def Seen (plan : PackPlan) (receipt : PackReceipt) (w : World ι β) : Prop :=
  ∃ content facts, w.Sealed plan.packId content ∧
    readers.inspectBundle settings plan content = .ok facts ∧
    receiptAccountingCost receipt = .ok (accountingCostUpperBound facts.usage)

/-- Every item of the evidence is of a sealed bundle. -/
def AllSeen (plans : List PackPlan) (evidence : Evidence) (w : World ι β) : Prop :=
  ∀ plan ∈ plans, ∀ item, evidence plan.packId = some item → Seen readers settings plan item.receipt w

variable {readers settings} {smokePlan : SmokePlan} {plan : PackPlan} {plans : List PackPlan}
  {receipt : PackReceipt} {item : PackEvidence} {evidence : Evidence} {e : SmokeEvidence}
  {w w' : World ι β}

theorem SmokeSeen.grows (h : SmokeSeen readers settings smokePlan e w) (hw : Grows w w') :
    SmokeSeen readers settings smokePlan e w' :=
  ⟨h.1.grows hw, h.2⟩

theorem Seen.grows (h : Seen readers settings plan receipt w) (hw : Grows w w') :
    Seen readers settings plan receipt w' := by
  obtain ⟨content, facts, hsealed, hrest⟩ := h
  exact ⟨content, facts, hw.bundles _ _ hsealed, hrest⟩

theorem AllSeen.grows (h : AllSeen readers settings plans evidence w) (hw : Grows w w') :
    AllSeen readers settings plans evidence w' :=
  fun plan hplan item hitem => (h plan hplan item hitem).grows hw

/-- An item more, of a plan of its own. -/
theorem AllSeen.set (hnodup : (plans.map PackPlan.packId).Nodup) (hplan : plan ∈ plans)
    (h : AllSeen readers settings plans evidence w) (hitem : Seen readers settings plan item.receipt w) :
    AllSeen readers settings plans (evidence.set plan.packId item) w := by
  intro other hother found hfound
  by_cases hid : other.packId = plan.packId
  · obtain rfl : other = plan := List.inj_on_of_nodup_map hnodup hother hplan hid
    rw [Evidence.set, Function.update_self] at hfound
    obtain rfl := Option.some.inj hfound
    exact hitem
  · rw [Evidence.set, Function.update_of_ne hid] at hfound
    exact h other hother found hfound

theorem smokeReceipt_cost {attempt : Json} {responseBytes : Bytes} {usage : UsageReceipt}
    {receipt : SmokeReceipt}
    (h : smokeReceipt sha settings smokePlan attempt responseBytes usage = .ok receipt) :
    smokeActualCost receipt = usage.costUsd := by
  cases hestimate : smokePlan.estimate.estimatedCostUsd with
  | none =>
    simp only [smokeReceipt, hestimate, bind_ok_iff] at h
    obtain ⟨_, -, _, ⟨⟩, -⟩ := h
  | some estimate =>
    simp only [smokeReceipt, hestimate, bind_ok_iff] at h
    obtain ⟨_, -, _, -, _, -, _, -, _, -, _, -, _, -, h⟩ := h
    obtain rfl := Except.ok.inj h
    rfl

end Knowledge

section Preflight

variable {ι β : Type} [DecidableEq ι] {claim : ι → PackId → World ι β → Prop} {i : ι}
  {w : World ι β} {sha : Sha256} {limits : Json.Limits} {readers : Readers β}
  {settings : MatrixSettings} {plans : List PackPlan} {smokePlan : SmokePlan} {plan : PackPlan}

theorem yields_fact {α : Type} {x : Except MatrixExc α} :
    (discipline claim).Yields i (.ofExcept x : Run β α) (fun a _ => x = .ok a) w :=
  .ofExcept fun _ _ hx _ _ => hx

theorem validatedSmokeEvidence_yields (responseBytes : Bytes) (document : Json) :
    (discipline claim).Yields i
      (validatedSmokeEvidence sha readers settings smokePlan responseBytes document)
      (fun e _ => e.responseBytes = responseBytes ∧ SmokePriced readers settings smokePlan e) w := by
  refine .bind yields_fact fun usage _ husage =>
    .bind (yields_any (smokeAttempt_quiet _).harmless) fun attempt _ _ =>
    .bind yields_fact fun expected _ hexpected => .bind (yields_any (asks_ofExcept _)) fun found _ _ =>
    .bind (yields_any (asks_ofExcept _)) fun bytes _ _ => ?_
  split
  · exact .ret fun _ _ _ => ⟨rfl, usage, husage, smokeReceipt_cost hexpected⟩
  · exact .raise

theorem read_yields (a : Artifact) :
    (discipline claim).Yields i (ask (.read a))
      (fun answer w' => ∀ bytes, answer = .ok bytes → w'.Stored a bytes) w := by
  refine .ask fun w₁ _ hinv => ⟨Request.Harmless.due (r := .read a) trivial w₁,
    fun answer w₂ heffect => ?_⟩
  obtain ⟨hacts, hinv₂⟩ := Request.Harmless.acts (r := .read a) trivial hinv heffect
  refine ⟨hacts, hinv₂, fun w₃ hkeeps _ bytes hanswer => ?_⟩
  obtain ⟨hread, rfl⟩ := heffect
  rcases hread with hread | hread
  · cases hfile : w₂.files a with
    | none =>
      rw [hfile] at hread
      cases hread.symm.trans hanswer
    | some file =>
      rw [hfile] at hread
      obtain rfl := Except.ok.inj (hread.symm.trans hanswer)
      have hstored : w₂.Stored a file.bytes := Option.map_eq_some_iff.mpr ⟨file, hfile, rfl⟩
      exact hstored.grows hkeeps.toGrows
  · cases hread.symm.trans hanswer

theorem bundle_yields (p : PackId) :
    (discipline claim).Yields i (ask (.bundle p))
      (fun answer w' => ∀ content, answer = some (some content) → w'.Sealed p content) w := by
  refine .ask fun w₁ _ hinv => ⟨Request.Harmless.due (r := .bundle p) trivial w₁,
    fun answer w₂ heffect => ?_⟩
  obtain ⟨hacts, hinv₂⟩ := Request.Harmless.acts (r := .bundle p) trivial hinv heffect
  refine ⟨hacts, hinv₂, fun w₃ hkeeps _ content hanswer => ?_⟩
  obtain ⟨hbundle, rfl⟩ := heffect
  exact hkeeps.bundles p content (hbundle.symm.trans hanswer)

/-- What `_verify_bundle_evidence` returns is seen. -/
theorem verifyBundleEvidence_yields :
    (discipline claim).Yields i (verifyBundleEvidence sha readers settings plan)
      (fun item w' => Seen readers settings plan item.receipt w') w := by
  refine .bind (bundle_yields plan.packId) fun answer w₁ hanswer => ?_
  split
  · rename_i content
    refine .mono (yields_frame (F := fun w' => w'.Sealed plan.packId content)
      (P := fun item _ => ∃ facts, readers.inspectBundle settings plan content = .ok facts ∧
        receiptAccountingCost item.receipt = .ok (accountingCostUpperBound facts.usage))
      ?_ (fun _ _ hgrows h => hgrows.bundles _ _ h) (hanswer content rfl)) ?_
    · exact .bind yields_fact fun facts _ hfacts =>
        .bind (yields_any (packAttempt_quiet plan).harmless) fun attempt _ _ =>
        .bind yields_fact fun receipt _ hreceipt =>
        .bind (yields_any (validateReportDirectory_quiet plan facts.artifacts).harmless) fun _ _ _ =>
        .bind (yields_any (asks_ofExcept _)) fun _ _ _ =>
        .bind (yields_any (expectBytes_quiet _ _).harmless) fun _ _ _ =>
        .ret fun _ _ _ => ⟨facts, hfacts, (receiptAccountingCost_actualReceipt hreceipt).1⟩
    · rintro item w' ⟨⟨facts, hfacts, hcost⟩, hsealed⟩
      exact ⟨content, facts, hsealed, hfacts, hcost⟩
  · exact .raise
  · exact .raise

/-- The smoke evidence that `_preflight_smoke` finds is seen. -/
theorem preflightSmoke_yields :
    (discipline claim).Yields i (preflightSmoke sha limits readers settings smokePlan)
      (fun found w' => ∀ e, found = some e → SmokeSeen readers settings smokePlan e w') w := by
  refine .bind (yields_any (asks_ask trivial)) fun present _ _ => ?_
  extract_lets checked
  have hchecked : ∀ w, (discipline claim).Yields i (checked PUnit.unit)
      (fun found w' => ∀ e, found = some e → SmokeSeen readers settings smokePlan e w') w := by
    intro w
    refine .bind (yields_any (asks_ofExcept _)) fun estimate _ _ =>
      .bind (yields_any (expectBytes_quiet _ _).harmless) fun estimatePresent _ _ =>
      .bind (yields_any (asks_ask trivial)) fun found _ _ => ?_
    extract_lets finish
    have hfinish : ∀ attemptPresent w, (discipline claim).Yields i (finish attemptPresent)
        (fun found w' => ∀ e, found = some e → SmokeSeen readers settings smokePlan e w') w := by
      intro attemptPresent w
      refine .bind (yields_any (anyPresent_quiet _).harmless) fun failed _ _ => ?_
      split
      · split <;> exact .raise
      refine .bind (yields_any (asks_ask trivial)) fun response _ _ =>
        .bind (yields_any (asks_ask trivial)) fun receipt _ _ => ?_
      split_ifs
      · exact .raise
      · exact .raise
      · exact .raise
      · refine .bind (yields_any (asks_ask trivial)) fun _ _ _ =>
          .bind (yields_any (asks_ask trivial)) fun _ _ _ => ?_
        split
        · exact .raise
        · exact .ret fun _ _ _ e he => by cases he
      · exact .raise
      · refine .bind (read_yields _) fun answer w₁ hread => ?_
        cases answer with
        | error e => exact .raise
        | ok bytes =>
          refine .mono (yields_frame (F := fun w' => w'.Stored .smokeResponse bytes)
            (P := fun found _ => ∀ e, found = some e → e.responseBytes = bytes ∧
              SmokePriced readers settings smokePlan e)
            ?_ (fun _ _ hgrows h => h.grows hgrows) (hread bytes rfl)) ?_
          · refine .bind (P := fun read _ => read = bytes)
              (.ofExcept fun _ _ h _ _ => (Except.ok.inj h).symm) fun read _ hbytes => ?_
            subst hbytes
            refine .bind (yields_any loadCanonicalObject_quiet.harmless) fun document _ _ =>
              .bind (validatedSmokeEvidence_yields _ document) fun e _ he =>
              .bind (yields_any (asks_ofExcept _)) fun _ _ _ =>
              .bind (yields_any (expectBytes_quiet _ _).harmless) fun _ _ _ =>
              .ret fun _ _ _ e' he' => ?_
            obtain rfl := Option.some.inj he'
            exact he
          · rintro found w' ⟨hfound, hstored⟩ e he
            obtain ⟨rfl, hpriced⟩ := hfound e he
            exact ⟨hstored, hpriced⟩
    split
    · exact .bind (yields_any (smokeAttempt_quiet _).harmless) fun _ _ _ =>
        .bind (yields_any (asks_ofExcept _)) fun _ _ _ =>
        .bind (yields_any (expectBytes_quiet _ _).harmless) fun present _ _ => hfinish present _
    · exact hfinish false _
  split
  · refine .bind (yields_any (asks_ask trivial)) fun litter _ _ => ?_
    split
    · exact .raise
    · exact hchecked _
  · exact hchecked _

/-- The evidence that `_preflight_existing` finds of a pack is seen. -/
theorem preflightPack_yields (smokePresent : Bool) :
    (discipline claim).Yields i (preflightPack sha readers settings smokePresent plan)
      (fun found w' => ∀ item, found = some item → Seen readers settings plan item.receipt w') w := by
  refine .bind (yields_any (asks_ofExcept _)) fun estimate _ _ =>
    .bind (yields_any (expectBytes_quiet _ _).harmless) fun estimatePresent _ _ => ?_
  split
  · exact .raise
  refine .bind (yields_any (packAttempt_quiet plan).harmless) fun attempt _ _ =>
    .bind (yields_any (asks_ofExcept _)) fun bytes _ _ =>
    .bind (yields_any (expectBytes_quiet _ _).harmless) fun attemptPresent _ _ =>
    .bind (yields_any (asks_ask trivial)) fun bundle _ _ => ?_
  split_ifs
  · exact .raise
  · exact .raise
  · refine .bind verifyBundleEvidence_yields fun item w₁ hitem =>
      .bind (yields_ofExcept (fun _ _ hgrows h => h.grows hgrows) hitem) fun cost w₂ hcost => ?_
    split
    · exact .raise
    · refine .ret fun w' (hkeeps : Keeps i w₂ w') _ item' h => ?_
      obtain rfl := Option.some.inj h
      exact hcost.2.grows hkeeps.toGrows
  · exact .raise
  · exact .bind (yields_any (orphanChecks_quiet plan).harmless) fun _ _ _ =>
      .ret fun _ _ _ item h => by cases h

theorem preflightPacks_yields (smokePresent : Bool) (hnodup : (plans.map PackPlan.packId).Nodup) :
    ∀ (rest : List PackPlan) (evidence : Evidence) (w : World ι β), (∀ plan ∈ rest, plan ∈ plans) →
      AllSeen readers settings plans evidence w →
      (discipline claim).Yields i (preflightPacks sha readers settings smokePresent rest evidence)
        (fun evidence' w' => AllSeen readers settings plans evidence' w') w := by
  intro rest
  induction rest with
  | nil =>
    intro evidence w _ hseen
    exact .ret fun w' (hkeeps : Keeps i w w') _ => hseen.grows hkeeps.toGrows
  | cons plan rest ih =>
    intro evidence w hsub hseen
    rw [List.forall_mem_cons] at hsub
    refine .bind (yields_frame (preflightPack_yields smokePresent)
      (fun _ _ hgrows h => h.grows hgrows) hseen) fun found w₁ h => ?_
    cases found with
    | none => exact ih evidence w₁ hsub.2 h.2
    | some item => exact ih _ w₁ hsub.2 (h.2.set hnodup hsub.1 (h.1 item rfl))

/-- The evidence that `_preflight_existing` finds is seen. -/
theorem preflightExisting_yields (hnodup : (plans.map PackPlan.packId).Nodup)
    (smokeEvidence : Option SmokeEvidence) (resume : Bool) :
    (discipline claim).Yields i
      (preflightExisting sha readers settings plans smokeEvidence resume)
      (fun evidence w' => AllSeen readers settings plans evidence w') w := by
  have hnone : ∀ w : World ι β, AllSeen readers settings plans (fun _ => none) w :=
    fun w plan _ item h => by cases h
  refine .bind (yields_any (asks_ask trivial)) fun found w₁ _ => ?_
  split
  · exact .raise
  refine .bind (yields_any (asks_ask trivial)) fun found w₂ _ => ?_
  split
  · refine .bind (preflightPacks_yields _ hnodup plans _ w₂ (fun _ h => h) (hnone w₂))
      fun evidence w₃ hseen => .bind (yields_frame (yields_any
        (preflightAggregate_quiet plans smokeEvidence evidence).harmless)
        (fun _ _ hgrows h => h.grows hgrows) hseen) fun _ w₄ h => ?_
    exact .ret fun w' (hkeeps : Keeps i w₄ w') _ => h.2.grows hkeeps.toGrows
  · exact .ret fun w' _ _ => hnone w'

end Preflight

end WagmiBench.Tools.ReferenceMatrix
