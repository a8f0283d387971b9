import WagmiBench.Sandbox.Isolation.Removal

/-!
# What a start leaves behind

The agent is launched directly after the guard answered as healthy and gave its three proofs. A
start that returns hands out a snapshot without failures; one that raises has tried to remove
everything it issued the creation of, the last first, and may be called again.
-/

namespace WagmiBench.Sandbox.Isolation

open WagmiBench.Lib WagmiBench.Spec WagmiBench.Core WagmiBench.Harness WagmiBench.Data

variable {τ : Type} (S : Setting τ)

/-! ## The proofs of the guard -/

/-- The output of a check is a document of the schema of its proof. -/
def IsProof (proof : String × String) (raw : Text) : Prop :=
  ∃ value, Json.loads S.limits plainHooks raw = .ok value ∧ Setting.hasSchema value proof.2 = true

/-- The guard answers as healthy, and each of its checks gives its proof. -/
def Proved (events : List (Event τ)) : Prop :=
  ∃ status answers, events = .command S.inspectGuard (.ok status) :: answers ∧
    strip status = txt "true healthy" ∧
    List.Forall₂ (fun proof e => ∃ raw, e = .command (S.guardCheck proof.1) (.ok raw) ∧
      IsProof S proof raw) Setting.proofs answers

namespace Setting

variable {S}

theorem loads_eq_ok {limits : Json.Limits} {invalid : Raised} {raw : Text} {value : Json} :
    loads limits invalid raw = .ok value ↔ Json.loads limits plainHooks raw = .ok value := by
  unfold loads
  cases h : Json.loads limits plainHooks raw with
  | ok v => simp
  | error e =>
    cases e with
    | hook e => exact nomatch e
    | _ => simp

theorem ofExcept_ends {α : Type} (x : Except Raised α) (s : DockerSandbox τ) :
    Ends (ofExcept x : Method τ α) s fun o s' => s' = s ∧ o = x.mapError .raised := by
  cases x with
  | ok a => exact Ends.pure ⟨rfl, rfl⟩
  | error e => exact Ends.throw ⟨rfl, rfl⟩

theorem mapError_eq_ok {ε ε' α : Type} {f : ε → ε'} {x : Except ε α} {a : α} :
    x.mapError f = .ok a ↔ x = .ok a := by
  cases x <;> simp [Except.mapError]

theorem readProof_ends (proof : String × String) (s : DockerSandbox τ) :
    Ends (S.readProof proof) s fun o s' => o = .ok () → ∃ raw, IsProof S proof raw ∧
      s' = { s with log := s.log ++ [.command (S.guardCheck proof.1) (.ok raw)] } := by
  refine Ends.bind (S.runText_ends _ s) ?_ (by simp)
  rintro raw _ ⟨answer, rfl, h⟩
  obtain rfl := mapError_eq_ok.mp h.symm
  refine Ends.bind (ofExcept_ends _ _) ?_ (by simp)
  rintro value _ ⟨rfl, hvalue⟩
  have hvalue := loads_eq_ok.mp (mapError_eq_ok.mp hvalue.symm)
  refine (ofExcept_ends _ _).mono ?_
  rintro o _ ⟨rfl, rfl⟩ hschema
  exact ⟨raw, ⟨value, hvalue, require_eq_ok.mp (mapError_eq_ok.mp hschema)⟩, rfl⟩

theorem readProofs_ends (checks : List (String × String)) (s : DockerSandbox τ) :
    Ends (checks.forM S.readProof) s fun o s' => o = .ok () → ∃ answers,
      s' = { s with log := s.log ++ answers } ∧
      List.Forall₂ (fun proof e => ∃ raw, e = .command (S.guardCheck proof.1) (.ok raw) ∧
        IsProof S proof raw) checks answers := by
  induction checks generalizing s with
  | nil => exact Ends.pure fun _ => ⟨[], by simp, .nil⟩
  | cons proof checks ih =>
    refine Ends.bind (readProof_ends proof s) ?_ (by simp)
    rintro ⟨⟩ s₁ h
    obtain ⟨raw, hproof, rfl⟩ := h rfl
    refine (ih _).mono fun o s' h ho => ?_
    obtain ⟨answers, rfl, hanswers⟩ := h ho
    exact ⟨_ :: answers, by simp, .cons ⟨raw, rfl, hproof⟩ hanswers⟩

/-- When the guard is found ready, its proofs have just been read. -/
theorem guardReady_ends (s : DockerSandbox τ) :
    Ends S.guardReady s fun o s' => o = .ok true → ∃ license, Proved S license ∧
      s' = { s with log := s.log ++ license } := by
  unfold guardReady
  refine Ends.bind (S.runText_ends _ s) ?_ (by simp)
  rintro status _ ⟨answer, rfl, h⟩
  obtain rfl := mapError_eq_ok.mp h.symm
  dsimp only
  split
  · rename_i hstatus
    refine Ends.bind (readProofs_ends proofs _) ?_ (by simp)
    rintro ⟨⟩ s₁ h
    obtain ⟨answers, rfl, hanswers⟩ := h rfl
    exact Ends.pure fun _ => ⟨_ :: answers, ⟨status, answers, rfl, hstatus, hanswers⟩, by simp⟩
  · split
    · exact Ends.bind Ends.any (fun _ _ _ => Ends.throw (by simp)) (by simp)
    · exact Ends.pure (by simp)

section Waiting

variable [LE τ] [DecidableLE τ]

/-- Waiting ends with a round whose predicate holds; the rounds before it have only looked. -/
theorem poll_ends {predicate : Method τ Bool} {R : DockerSandbox τ → DockerSandbox τ → Prop}
    (hlooks : Looking predicate)
    (h : ∀ s, Ends predicate s fun o s' => o = .ok true → R s s') (failure : Text) (deadline : τ)
    (rounds : ℕ) (s : DockerSandbox τ) :
    Ends (S.poll predicate failure deadline rounds) s fun o s' =>
      o = .ok () → ∃ s₁, Looks s s₁ ∧ R s₁ s' := by
  induction rounds generalizing s with
  | zero => exact Ends.throw (by simp)
  | succ rounds ih =>
    unfold poll
    refine Ends.bind ((h s).and (hlooks s)) ?_ (by simp)
    rintro done s₁ ⟨hdone, hlooks₁⟩
    split
    · rename_i hd
      exact Ends.pure fun _ => ⟨s, refl_of Looks s, hdone (by rw [hd])⟩
    · refine Ends.bind (S.looking_monotonic s₁) ?_ (by simp)
      intro now s₂ hlooks₂
      split
      · exact Ends.throw (by simp)
      · refine Ends.bind (looking_sleep s₂) ?_ (by simp)
        intro _ s₃ hlooks₃
        refine (ih s₃).mono fun o s' h' ho => ?_
        obtain ⟨s₄, hlooks₄, hR⟩ := h' ho
        have := trans_of Looks hlooks₁ (trans_of Looks hlooks₂ (trans_of Looks hlooks₃ hlooks₄))
        exact ⟨s₄, this, hR⟩

end Waiting

end Setting

/-! ## Building -/

/-- What a start has done so far: the resources it issued the creation of are the ones it recorded,
it removed nothing, and the launch of the agent has its proofs. -/
structure Built (s : DockerSandbox τ) (events : List (Event τ)) : Prop where
  created : events.filterMap Event.created =
    s.createdNetworks.map .network ++ s.createdContainers.map .container
  removed : ∀ e ∈ events, e.removed = none
  launched : Guarded Event.launched (fun _ => Proved S) events

/-- What has been built between two states. -/
def Grown (s s' : DockerSandbox τ) : Prop := ∃ events, s'.log = s.log ++ events ∧ Built S s' events

/-- A start that is under way has come from one state to another; it hands out nothing yet. -/
structure Building (s s' : DockerSandbox τ) : Prop where
  grown : Grown S s s'
  handle : s'.handle = s.handle

variable {S}

theorem Building.looks {s₀ s s' : DockerSandbox τ} (h : Building S s₀ s) (hs : Looks s s') :
    Building S s₀ s' := by
  obtain ⟨⟨events, hlog, hbuilt⟩, hhandle⟩ := h
  obtain ⟨quiet, rfl, hquiet⟩ := hs
  refine ⟨⟨events ++ quiet, by rw [← List.append_assoc, ← hlog], ?_, fun e he => ?_, ?_⟩, hhandle⟩
  · rw [List.filterMap_append, List.filterMap_eq_nil_iff.mpr fun e he => (hquiet e he).created,
      List.append_nil, hbuilt.created]
  · exact (List.mem_append.mp he).elim (hbuilt.removed e) fun h => (hquiet e h).removed
  · exact hbuilt.launched.append (guarded_of_none fun e he => (hquiet e he).launched)

theorem Setting.Fresh.building {s s' : DockerSandbox τ} (h : Fresh s) (hs : Looks s s') :
    Building S s s' :=
  have none : Built S s [] :=
    ⟨by simp [h.containers, h.networks], by simp, guarded_of_none (by simp)⟩
  Building.looks ⟨⟨[], by simp, none⟩, rfl⟩ hs

/-- The sandbox has recorded these networks and these containers. -/
structure DockerSandbox.Records (s : DockerSandbox τ) (networks containers : List Text) : Prop where
  networks : s.createdNetworks = networks
  containers : s.createdContainers = containers

theorem DockerSandbox.Records.looks {s s' : DockerSandbox τ} {networks containers : List Text}
    (h : s.Records networks containers) (hs : Looks s s') : s'.Records networks containers := by
  obtain ⟨events, rfl, -⟩ := hs
  exact ⟨h.networks, h.containers⟩

namespace Setting

variable {networks containers : List Text}

/-- A network is recorded and its creation issued. -/
theorem createNetwork_ends {s₀ s : DockerSandbox τ} {words : Argv} {name : Text}
    (h : Building S s₀ s) (hs : s.Records networks [])
    (hcreated : createdBy words = some (.network name)) (hremoved : removedBy words = none) :
    Ends (S.createNetwork words name) s fun _ s' =>
      Building S s₀ s' ∧ s'.Records (networks ++ [name]) [] := by
  obtain ⟨⟨events, hlog, hbuilt⟩, hhandle⟩ := h
  have built : ∀ answer, Building S s₀ { s with
      log := s.log ++ [.command words answer]
      createdNetworks := s.createdNetworks ++ [name] } := by
    intro answer
    refine ⟨⟨events ++ [.command words answer], by simp [hlog], ?_, fun e he => ?_, ?_⟩, hhandle⟩
    · have := hbuilt.created
      rw [hs.containers] at this
      simp [this, hs.containers, Event.created, Event.words, hcreated]
    · rcases List.mem_append.mp he with he | he
      · exact hbuilt.removed e he
      · rw [List.mem_singleton.mp he]
        exact hremoved
    · exact hbuilt.launched.append (guarded_of_none (by simp [Event.launched]))
  refine Ends.modify_bind (Ends.bind (S.runText_ends words _) ?_ ?_)
  · rintro _ _ ⟨answer, rfl, -⟩
    exact Ends.pure ⟨built answer, by rw [hs.networks], hs.containers⟩
  · rintro _ _ ⟨answer, rfl, -⟩
    exact ⟨built answer, by rw [hs.networks], hs.containers⟩

/-- A container is recorded and its creation issued. -/
theorem Building.container {s₀ s : DockerSandbox τ} {name : Text} {e : Event τ}
    (h : Building S s₀ s) (hcreated : e.created = some (.container name))
    (hremoved : e.removed = none) (hlaunched : e.launched = none) :
    Building S s₀ { s with
      log := s.log ++ [e]
      createdContainers := s.createdContainers ++ [name] } := by
  obtain ⟨⟨events, hlog, hbuilt⟩, hhandle⟩ := h
  refine ⟨⟨events ++ [e], by simp [hlog], ?_, fun e' he => ?_, ?_⟩, hhandle⟩
  · simp [hbuilt.created, hcreated]
  · rcases List.mem_append.mp he with he | he
    · exact hbuilt.removed e' he
    · rw [List.mem_singleton.mp he]
      exact hremoved
  · exact hbuilt.launched.append (guarded_of_none (by simp [hlaunched]))

theorem createContainer_ends {s₀ s : DockerSandbox τ} {words : Argv} {name : Text}
    (h : Building S s₀ s) (hs : s.Records networks containers)
    (hcreated : createdBy words = some (.container name)) (hremoved : removedBy words = none) :
    Ends (S.createContainer words name) s fun _ s' =>
      Building S s₀ s' ∧ s'.Records networks (containers ++ [name]) := by
  refine Ends.modify_bind (Ends.bind (S.runText_ends words _) ?_ ?_)
  · rintro _ _ ⟨answer, rfl, -⟩
    exact Ends.pure ⟨Building.container h hcreated hremoved rfl, hs.networks, by rw [hs.containers]⟩
  · rintro _ _ ⟨answer, rfl, -⟩
    exact ⟨Building.container h hcreated hremoved rfl, hs.networks, by rw [hs.containers]⟩

/-! ### The launch of the agent -/

theorem idle_guardCheck (flag : String) : Idle (S.guardCheck flag) := by
  simp [Idle, guardCheck, createdBy, removedBy, argv]

theorem idle_inspectGuard : Idle S.inspectGuard := by
  simp [Idle, inspectGuard, createdBy, removedBy, argv]

theorem idle_connectGateway : Idle S.plan.connectGateway := by
  simp [Idle, createdBy, removedBy, IsolationPlan.connectGateway, argv]

theorem idle_connectGuard : Idle S.plan.connectGuard := by
  simp [Idle, createdBy, removedBy, IsolationPlan.connectGuard, argv]

end Setting

theorem Proved.quiet {license : List (Event τ)} (h : Proved S license) :
    ∀ e ∈ license, e.Quiet := by
  obtain ⟨status, answers, rfl, -, hanswers⟩ := h
  intro e he
  rcases List.mem_cons.mp he with rfl | he
  · exact Setting.idle_inspectGuard.quiet _
  · obtain ⟨i, hi, rfl⟩ := List.mem_iff_getElem.mp he
    obtain ⟨raw, hraw, -⟩ := hanswers.get (by rw [hanswers.length_eq]; exact hi) hi
    have hraw : answers[i] = _ := hraw
    rw [hraw]
    exact (Setting.idle_guardCheck _).quiet _

namespace Setting

theorem runAgentCreate_ends {s₀ s₁ : DockerSandbox τ} {license : List (Event τ)}
    (h : Building S s₀ s₁) (hs : s₁.Records networks containers) (hlicense : Proved S license) :
    Ends S.runAgentCreate { s₁ with log := s₁.log ++ license } fun _ s' =>
      Building S s₀ s' ∧ s'.Records networks (containers ++ [S.plan.agentName]) := by
  have hwords : createdBy S.plan.runAgent = some (.container S.plan.agentName) ∧
      removedBy S.plan.runAgent = none := by
    simp [createdBy, removedBy, IsolationPlan.runAgent, argv]
  have built : ∀ answer, Building S s₀ { s₁ with
      log := s₁.log ++ license ++ [.launch S.plan.runAgent answer]
      createdContainers := s₁.createdContainers ++ [S.plan.agentName] } := by
    intro answer
    obtain ⟨⟨events, hlog, hbuilt⟩, hhandle⟩ := h
    refine ⟨⟨events ++ (license ++ [.launch S.plan.runAgent answer]), by simp [hlog], ?_,
      fun e he => ?_, ?_⟩, hhandle⟩
    · have hnone : license.filterMap Event.created = [] :=
        List.filterMap_eq_nil_iff.mpr fun e he => (hlicense.quiet e he).created
      simp [hbuilt.created, hnone, Event.created, Event.words, hwords.1]
    · simp only [List.mem_append, List.mem_singleton] at he
      rcases he with he | he | rfl
      · exact hbuilt.removed e he
      · exact (hlicense.quiet e he).removed
      · exact hwords.2
    · exact hbuilt.launched.append
        (guarded_concat (fun e he => (hlicense.quiet e he).launched) fun _ _ => hlicense)
  refine Ends.modify_bind (Ends.bind (S.runWithEnv_ends _ _) ?_ ?_)
  · rintro _ _ ⟨answer, rfl⟩
    exact Ends.pure ⟨built answer, hs.networks, by rw [hs.containers]⟩
  · rintro _ _ ⟨answer, rfl⟩
    exact ⟨built answer, hs.networks, by rw [hs.containers]⟩

/-- What `require_ready` returns passed every check. -/
theorem requireReady_ends (s : DockerSandbox τ) :
    Ends S.requireReady s fun o _ => ∀ snapshot, o = .ok snapshot →
      evaluateRuntimeSnapshot S.sha S.floatIs S.plan snapshot = .ok [] := by
  unfold requireReady
  refine Ends.bind Ends.any (fun files _ _ => ?_) (by simp)
  refine Ends.bind Ends.any (fun _ _ _ => ?_) (by simp)
  refine Ends.bind Ends.any (fun snapshot _ _ => ?_) (by simp)
  refine Ends.bind (ofExcept_ends _ _) ?_ (by simp)
  rintro failures _ ⟨rfl, hfailures⟩
  refine Ends.bind (ofExcept_ends _ _) ?_ (by simp)
  rintro ⟨⟩ _ ⟨rfl, hnone⟩
  refine Ends.pure fun _ hsnapshot => ?_
  obtain rfl := Except.ok.inj hsnapshot
  have hnone : failures = [] := require_eq_ok.mp (mapError_eq_ok.mp hnone.symm)
  rw [mapError_eq_ok.mp hfailures.symm, hnone]

/-- What a failed start has tried to remove, after what it had done. -/
def CleanedUp (S : Setting τ) (s s' : DockerSandbox τ) : Prop :=
  Fresh s' ∧ ∃ events rounds, s'.log = s.log ++ events ++ eventsOf rounds ∧
    (∀ e ∈ events, e.removed = none) ∧ Guarded Event.launched (fun _ => Proved S) events ∧
    Rounds S (events.filterMap Event.created).reverse rounds

/-- How a start ends that finds nothing recorded. -/
def Started (S : Setting τ) (s : DockerSandbox τ) :
    Except Stop SandboxHandle → DockerSandbox τ → Prop
  | .ok handle, s' => Grown S s s' ∧ s'.handle = some handle ∧
      s'.Records [S.plan.internalNetwork, S.plan.egressNetwork]
        [S.plan.gatewayName, S.plan.guardName, S.plan.agentName] ∧
      evaluateRuntimeSnapshot S.sha S.floatIs S.plan handle.snapshot = .ok []
  | .error .polling, s' => Building S s s'
  | .error (.raised _), s' => CleanedUp S s s'

theorem started_of_looks {s s' : DockerSandbox τ} (hfresh : Fresh s) (hlooks : Looks s s')
    (e : Stop) : Started S s (.error e) s' := by
  cases e with
  | polling => exact hfresh.building hlooks
  | raised e =>
    obtain ⟨events, rfl, hquiet⟩ := hlooks
    refine ⟨⟨hfresh.containers, hfresh.networks, hfresh.handle⟩, events, [], by simp [eventsOf],
      fun e he => (hquiet e he).removed, guarded_of_none fun e he => (hquiet e he).launched, ?_⟩
    rw [List.filterMap_eq_nil_iff.mpr fun e he => (hquiet e he).created]
    exact .nil

section Start

variable [Add τ] [LE τ] [DecidableLE τ]

/-- Behind the wait for the guard its proofs have just been read. -/
theorem waitForGuard_ends {s₀ s : DockerSandbox τ} (h : Building S s₀ s)
    (hs : s.Records networks containers) (rounds : ℕ) (failure : Text) :
    Ends (S.waitUntil rounds S.guardReady failure) s fun o s' => Building S s₀ s' ∧
      (o = .ok () → ∃ s₁ license, Building S s₀ s₁ ∧ s₁.Records networks containers ∧
        Proved S license ∧ s' = { s₁ with log := s₁.log ++ license }) := by
  refine Ends.and ((S.looking_waitUntil S.looking_guardReady rounds failure s).mono
    fun _ _ hs' => h.looks hs') ?_
  refine Ends.bind (S.looking_monotonic s) ?_ (by simp)
  intro now s₁ h₁
  refine (poll_ends S.looking_guardReady guardReady_ends failure _ rounds s₁).mono ?_
  intro o s' h' ho
  obtain ⟨s₂, h₂, license, hlicense, rfl⟩ := h' ho
  exact ⟨s₂, license, (h.looks h₁).looks h₂, (hs.looks h₁).looks h₂, hlicense, rfl⟩

/-- How the `try` block of a start ends. -/
theorem launch_ends {s₀ s : DockerSandbox τ} (h : Building S s₀ s) (hs : s.Records [] [])
    (rounds : ℕ) (secrets : List (Text × Text)) :
    Ends (S.launch rounds secrets) s fun o s' => match o with
      | .ok handle => Grown S s₀ s' ∧ s'.handle = some handle ∧
        s'.Records [S.plan.internalNetwork, S.plan.egressNetwork]
          [S.plan.gatewayName, S.plan.guardName, S.plan.agentName] ∧
        evaluateRuntimeSnapshot S.sha S.floatIs S.plan handle.snapshot = .ok []
      | .error _ => Building S s₀ s' := by
  unfold launch
  refine Ends.bind (createNetwork_ends h hs
    (by simp [createdBy, IsolationPlan.createInternalNetwork, argv])
    (by simp [removedBy, IsolationPlan.createInternalNetwork, argv])) ?_
    fun e s' hs' => hs'.1
  rintro _ s₁ ⟨h₁, hs₁⟩
  refine Ends.bind (createNetwork_ends h₁ hs₁
    (by simp [createdBy, IsolationPlan.createEgressNetwork, argv])
    (by simp [removedBy, IsolationPlan.createEgressNetwork, argv])) ?_
    fun e s' hs' => hs'.1
  rintro _ s₂ ⟨h₂, hs₂⟩
  refine Ends.bind (createContainer_ends h₂ hs₂
    (by simp [createdBy, IsolationPlan.runGateway, argv])
    (by simp [removedBy, IsolationPlan.runGateway, argv])) ?_ fun e s' hs' => hs'.1
  rintro _ s₃ ⟨h₃, hs₃⟩
  refine Ends.bind (S.looking_runText idle_connectGateway s₃) ?_ fun e s' hs' => h₃.looks hs'
  intro _ s₄ h₄
  refine Ends.bind (createContainer_ends (h₃.looks h₄) (hs₃.looks h₄)
    (by simp [createdBy, IsolationPlan.runGuard, argv])
    (by simp [removedBy, IsolationPlan.runGuard, argv])) ?_ fun e s' hs' => hs'.1
  rintro _ s₅ ⟨h₅, hs₅⟩
  refine Ends.bind (S.looking_runText idle_connectGuard s₅) ?_ fun e s' hs' => h₅.looks hs'
  intro _ s₆ h₆
  refine Ends.bind (waitForGuard_ends (h₅.looks h₆) (hs₅.looks h₆) rounds _) ?_
    fun e s' hs' => hs'.1
  rintro _ s₇ ⟨-, h₇⟩
  obtain ⟨s', license, h', hs', hlicense, rfl⟩ := h₇ rfl
  refine Ends.bind (runAgentCreate_ends h' hs' hlicense) ?_ fun e s' hs' => hs'.1
  rintro _ s₈ ⟨h₈, hs₈⟩
  refine Ends.bind (S.looking_waitUntil S.looking_agentHealthy rounds _ s₈) ?_
    fun e s' hs' => h₈.looks hs'
  intro _ s₉ h₉
  refine Ends.bind ((S.looking_requireReady s₉).and (requireReady_ends s₉)) ?_
    fun e s' hs' => (h₈.looks h₉).looks hs'.1
  rintro snapshot s₁₀ ⟨h₁₀, hpassed⟩
  have built := (h₈.looks h₉).looks h₁₀
  have records := (hs₈.looks h₉).looks h₁₀
  refine Ends.bind (ofExcept_ends _ s₁₀) ?_ fun e s' hs' => hs'.1 ▸ built
  rintro agent _ ⟨rfl, -⟩
  refine Ends.modify_bind (Ends.pure ⟨?_, rfl, ⟨records.networks, records.containers⟩,
    hpassed snapshot rfl⟩)
  obtain ⟨events, hlog, hbuilt⟩ := built.grown
  exact ⟨events, hlog, ⟨hbuilt.created, hbuilt.removed, hbuilt.launched⟩⟩

/-- **How a start ends** that finds nothing recorded. -/
theorem start_ends {s : DockerSandbox τ} (hfresh : Fresh s) (rounds : ℕ) :
    Ends (S.start rounds) s (Started S s) := by
  unfold start
  refine Ends.get_bind ?_
  rw [if_neg (by simp [hfresh.containers, hfresh.networks, hfresh.handle])]
  refine Ends.bind (S.looking_look s) ?_ fun e s' h => started_of_looks hfresh h e
  intro files s₁ h₁
  refine Ends.bind (looking_ofExcept _ s₁) ?_
    fun e s' h => started_of_looks hfresh (trans_of Looks h₁ h) e
  intro _ s₂ h
  have h₂ := trans_of Looks h₁ h
  refine Ends.bind (S.looking_auditContexts s₂) ?_
    fun e s' h => started_of_looks hfresh (trans_of Looks h₂ h) e
  intro _ s₃ h
  have h₃ := trans_of Looks h₂ h
  refine Ends.bind (S.looking_look s₃) ?_
    fun e s' h => started_of_looks hfresh (trans_of Looks h₃ h) e
  intro files s₄ h
  have h₄ := trans_of Looks h₃ h
  refine Ends.bind (looking_ofExcept _ s₄) ?_
    fun e s' h => started_of_looks hfresh (trans_of Looks h₄ h) e
  intro secrets s₅ h
  have h₅ := trans_of Looks h₄ h
  have hs : s.Records [] [] := ⟨hfresh.networks, hfresh.containers⟩
  refine Ends.tryCatch (launch_ends (hfresh.building h₅) (hs.looks h₅) rounds secrets) ?_ ?_
  · intro handle s' h
    exact h
  · intro e s₆ hbuilt
    cases e with
    | polling => exact Ends.throw hbuilt
    | raised e =>
      refine Ends.bind (S.cleanupBestEffort_ends s₆) ?_ (by simp)
      rintro _ s' ⟨-, hfresh', removals, hremovals, hlog⟩
      obtain ⟨events, hlog₆, hbuilt⟩ := hbuilt.grown
      refine Ends.throw ⟨hfresh', events, removals, by rw [hlog, hlog₆], hbuilt.removed,
        hbuilt.launched, ?_⟩
      -- networks are created before containers
      rw [hbuilt.created, List.reverse_append, ← List.map_reverse, ← List.map_reverse]
      exact hremovals

end Start

end Setting

end WagmiBench.Sandbox.Isolation
