import WagmiBench.Sandbox.Isolation.Start

/-!
# The life of a sandbox

A sandbox is started and closed in any order and any number of times, and every interaction may have
any outcome. What its log shows at every moment: nothing is removed that was not just seen to be the
sandbox's own, the agent never runs before the guard has given its proofs, and a resource whose
creation was issued is recorded until the removal of it has been tried.
-/

namespace WagmiBench.Sandbox.Isolation

open WagmiBench.Lib WagmiBench.Spec WagmiBench.Core WagmiBench.Harness WagmiBench.Data

variable {τ : Type} (S : Setting τ)

/-! ## Rounds in a log -/

/-- Somewhere among the events the removal of a resource is tried. -/
def Tried (r : Resource) (events : List (Event τ)) : Prop :=
  ∃ fate round, Round S r fate round ∧ round <:+: events

variable {S}

theorem Tried.within {r : Resource} {events more : List (Event τ)} (h : Tried S r events)
    (hmore : events <:+: more) : Tried S r more := by
  obtain ⟨fate, round, hround, hin⟩ := h
  exact ⟨fate, round, hround, hin.trans hmore⟩

theorem Round.created {r : Resource} {fate : Fate} {events : List (Event τ)}
    (h : Round S r fate events) : ∀ e ∈ events, e.created = none := by
  have hinspect := r.idle_inspect.1
  have hremove := r.createdBy_remove
  cases h <;> simp [Event.created, Event.words, hinspect, hremove]

theorem Round.launched {r : Resource} {fate : Fate} {events : List (Event τ)}
    (h : Round S r fate events) : ∀ e ∈ events, e.launched = none := by
  cases h <;> simp [Event.launched]

/-- Within a round the removal stands directly behind the inspection. -/
theorem Round.guarded {r : Resource} {fate : Fate} {events : List (Event τ)}
    (h : Round S r fate events) : Guarded Event.removed (Owned S) events := by
  have hinspect : ∀ answer, (Event.command r.inspect answer : Event τ).removed = none :=
    fun _ => r.idle_inspect.2
  have hremove : ∀ answer, (Event.command r.remove answer : Event τ).removed = some r :=
    fun _ => r.removedBy_remove
  have licensed : ∀ {raw : Text} (answer : Except Text Text), strip raw = S.plan.sandboxId →
      Guarded Event.removed (Owned S) [.command r.inspect (.ok raw), .command r.remove answer] := by
    intro raw answer hraw
    have hquiet : ∀ e ∈ [(Event.command r.inspect (.ok raw) : Event τ)], e.removed = none := by
      simp [hinspect]
    refine guarded_concat hquiet ?_
    intro r' hr'
    rw [hremove] at hr'
    obtain rfl := Option.some.inj hr'
    exact ⟨raw, rfl, hraw⟩
  cases h with
  | unanswered message => exact guarded_of_none (by simp [hinspect])
  | foreign h => exact guarded_of_none (by simp [hinspect])
  | removed printed h => exact licensed _ h
  | failed message h => exact licensed _ h

section Rounds

variable {resources : List Resource} {rounds : List (Fate × List (Event τ))}

theorem Rounds.of_mem (h : Rounds S resources rounds) {round : Fate × List (Event τ)}
    (hround : round ∈ rounds) : ∃ r, Round S r round.1 round.2 := by
  induction h with
  | nil => cases hround
  | @cons r round' resources rounds hr _ ih =>
    rcases List.mem_cons.mp hround with rfl | hround
    · exact ⟨r, hr⟩
    · exact ih hround

theorem Rounds.tried (h : Rounds S resources rounds) {r : Resource} (hr : r ∈ resources) :
    Tried S r (eventsOf rounds) := by
  induction h with
  | nil => cases hr
  | @cons r' round resources rounds hround _ ih =>
    have hsplit : eventsOf (round :: rounds) = round.2 ++ eventsOf rounds := by simp [eventsOf]
    rw [hsplit]
    rcases List.mem_cons.mp hr with rfl | hr
    · exact ⟨round.1, round.2, hround, (List.prefix_append _ _).isInfix⟩
    · exact (ih hr).within (List.suffix_append _ _).isInfix

theorem Rounds.events {P : Event τ → Prop} (h : Rounds S resources rounds)
    (hP : ∀ {r fate events}, Round S r fate events → ∀ e ∈ events, P e) :
    ∀ e ∈ eventsOf rounds, P e := by
  intro e he
  obtain ⟨events, hevents, he⟩ := List.mem_flatten.mp he
  obtain ⟨round, hround, rfl⟩ := List.mem_map.mp hevents
  obtain ⟨r, hr⟩ := h.of_mem hround
  exact hP hr e he

theorem Rounds.guarded (h : Rounds S resources rounds) :
    Guarded Event.removed (Owned S) (eventsOf rounds) := by
  refine guarded_flatten fun events hevents => ?_
  obtain ⟨round, hround, rfl⟩ := List.mem_map.mp hevents
  obtain ⟨r, hr⟩ := h.of_mem hround
  exact hr.guarded

end Rounds

/-! ## The invariant -/

variable (S)

/-- Every resource whose creation was issued is recorded, or its removal was tried afterwards. -/
def Accounted (recorded : List Resource) (log : List (Event τ)) : Prop :=
  ∀ before e after, log = before ++ e :: after → ∀ r ∈ e.created, r ∈ recorded ∨ Tried S r after

/-- What holds of a sandbox between two calls. -/
structure Sound (s : DockerSandbox τ) : Prop where
  removed : Guarded Event.removed (Owned S) s.log
  launched : Guarded Event.launched (fun _ => Proved S) s.log
  accounted : Accounted S (Setting.recorded s) s.log
  /-- A sandbox that runs has passed its preflight, and it has recorded all that it consists of. -/
  handle : ∀ handle ∈ s.handle,
    s.Records [S.plan.internalNetwork, S.plan.egressNetwork]
      [S.plan.gatewayName, S.plan.guardName, S.plan.agentName] ∧
    evaluateRuntimeSnapshot S.sha S.floatIs S.plan handle.snapshot = .ok []

variable {S}

/-- More events: what was recorded stays recorded or is tried, and what is created is recorded or
tried. -/
theorem Accounted.append {recorded recorded' : List Resource} {log more : List (Event τ)}
    (h : Accounted S recorded log) (hrecorded : ∀ r ∈ recorded, r ∈ recorded' ∨ Tried S r more)
    (hmore : Accounted S recorded' more) : Accounted S recorded' (log ++ more) := by
  intro before e after heq r hr
  rcases List.append_eq_append_iff.mp heq with ⟨front, hbefore, hfront⟩ | ⟨back, hlog, hafter⟩
  · exact hmore front e after hfront r hr
  · cases back with
    | nil => exact hmore [] e after (by simpa using hafter.symm) r hr
    | cons e' back =>
      obtain ⟨rfl, rfl⟩ := List.cons.inj hafter
      rcases h before e back hlog r hr with hr | hr
      · exact (hrecorded r hr).imp id fun h => h.within (List.suffix_append _ _).isInfix
      · exact .inr (hr.within (List.prefix_append _ _).isInfix)

theorem accounted_of_created {recorded : List Resource} {events : List (Event τ)}
    (h : ∀ r ∈ events.filterMap Event.created, r ∈ recorded) : Accounted S recorded events := by
  rintro before e after rfl r hr
  exact .inl (h r (List.mem_filterMap.mpr ⟨e, by simp, hr⟩))

/-- All that was recorded has been tried. -/
theorem Accounted.rounds {resources : List Resource} {log : List (Event τ)}
    {rounds : List (Fate × List (Event τ))} (h : Accounted S resources log)
    (hrounds : Rounds S resources rounds) : Accounted S [] (log ++ eventsOf rounds) := by
  refine h.append (fun r hr => .inr (hrounds.tried hr)) (accounted_of_created ?_)
  rw [List.filterMap_eq_nil_iff.mpr (hrounds.events Round.created)]
  simp

theorem Setting.Fresh.recorded {s : DockerSandbox τ} (h : Fresh s) : Setting.recorded s = [] := by
  simp [Setting.recorded, h.containers, h.networks]

theorem sound_new : Sound S {} where
  removed := guarded_of_none (by simp)
  launched := guarded_of_none (by simp)
  accounted := accounted_of_created (by simp)
  handle := by simp

/-- What a start has built, recorded as it is, keeps to the invariant. -/
theorem Sound.grown {s s' : DockerSandbox τ} (h : Sound S s) (hs : Setting.Fresh s)
    (hgrown : Grown S s s')
    (hhandle : ∀ handle ∈ s'.handle,
      s'.Records [S.plan.internalNetwork, S.plan.egressNetwork]
        [S.plan.gatewayName, S.plan.guardName, S.plan.agentName] ∧
      evaluateRuntimeSnapshot S.sha S.floatIs S.plan handle.snapshot = .ok []) : Sound S s' := by
  obtain ⟨events, hlog, hbuilt⟩ := hgrown
  refine ⟨?_, ?_, ?_, hhandle⟩
  · rw [hlog]
    exact h.removed.append (guarded_of_none hbuilt.removed)
  · rw [hlog]
    exact h.launched.append hbuilt.launched
  · rw [hlog]
    refine h.accounted.append (by simp [hs.recorded]) (accounted_of_created fun r hr => ?_)
    rw [hbuilt.created] at hr
    simpa [Setting.recorded, or_comm] using hr

/-- A removal of all that is recorded keeps to the invariant. -/
theorem sound_of_rounds {s' : DockerSandbox τ} {resources : List Resource} {log : List (Event τ)}
    {rounds : List (Fate × List (Event τ))}
    (removed : Guarded Event.removed (Owned S) log)
    (launched : Guarded Event.launched (fun _ => Proved S) log)
    (accounted : Accounted S resources log) (hrounds : Rounds S resources rounds)
    (hlog : s'.log = log ++ eventsOf rounds) (hs' : Setting.Fresh s') : Sound S s' := by
  refine ⟨?_, ?_, ?_, by simp [hs'.handle]⟩
  · rw [hlog]
    exact removed.append hrounds.guarded
  · rw [hlog]
    exact launched.append (guarded_of_none (hrounds.events Round.launched))
  · rw [hlog, hs'.recorded]
    exact accounted.rounds hrounds

/-! ## Calls -/

/-- A start of a sandbox that something is recorded of. -/
theorem start_refused [Add τ] [LE τ] [DecidableLE τ] {s : DockerSandbox τ} (h : ¬Setting.Fresh s)
    (rounds : ℕ) : Ends (S.start rounds) s fun o s' => s' = s ∧
      o = .error (.raised (.runtimeError (txt "sandbox lifecycle already started"))) := by
  unfold Setting.start
  refine Ends.get_bind ?_
  have hstarted : s.handle.isSome ∨ s.createdContainers ≠ [] ∨ s.createdNetworks ≠ [] := by
    by_contra hnone
    push Not at hnone
    exact h ⟨hnone.2.1, hnone.2.2, by simpa using hnone.1⟩
  rw [if_pos hstarted]
  exact Ends.bind (Ends.throw (Q := fun o s' => s' = s ∧ o = .error (.raised
    (.runtimeError (txt "sandbox lifecycle already started")))) ⟨rfl, rfl⟩) (by simp) (by simp)

theorem Sound.start [Add τ] [LE τ] [DecidableLE τ] {s : DockerSandbox τ} (h : Sound S s)
    (rounds : ℕ) : Ends (S.start rounds) s fun _ s' => Sound S s' := by
  by_cases hs : Setting.Fresh s
  · refine (Setting.start_ends hs rounds).mono fun o s' hs' => ?_
    cases o with
    | ok handle =>
      obtain ⟨hgrown, hhandle, hrecords, hpassed⟩ := hs'
      refine h.grown hs hgrown fun handle' hmem => ?_
      obtain rfl := Option.some.inj (hhandle.symm.trans hmem)
      exact ⟨hrecords, hpassed⟩
    | error e =>
      cases e with
      | polling =>
        refine h.grown hs hs'.grown ?_
        rw [hs'.handle, hs.handle]
        simp
      | raised e =>
        obtain ⟨hfresh, events, removals, hlog, hremoved, hlaunched, hremovals⟩ := hs'
        refine sound_of_rounds (h.removed.append (guarded_of_none hremoved))
          (h.launched.append hlaunched) (h.accounted.append (by simp [hs.recorded]) ?_)
          hremovals hlog hfresh
        exact accounted_of_created fun r hr => List.mem_reverse.mpr hr
  · refine (start_refused hs rounds).mono ?_
    rintro o s' ⟨rfl, -⟩
    exact h

theorem Sound.close {s : DockerSandbox τ} (h : Sound S s) :
    Ends S.close s fun _ s' => Sound S s' := by
  refine (S.close_ends s).mono ?_
  rintro o s' ⟨hfresh, rounds, hrounds, hlog, -⟩
  exact sound_of_rounds h.removed h.launched h.accounted hrounds hlog hfresh

/-! ## Isolation -/

variable (S) in
/-- What a snapshot without failures shows of the agent and of what stands around it. -/
structure Isolated (snapshot : RuntimeSnapshot) : Prop where
  /-- The agent has no network but that of the guard, which publishes one loopback port. -/
  network : networkModeMatchesGuard snapshot.agent.networkMode snapshot.guard = true ∧
    snapshot.agent.portBindings = [] ∧
    snapshot.guard.portBindings = [(decimalInt S.plan.agentHttpPort ++ txt "/tcp", txt "127.0.0.1",
      decimalInt S.plan.hostHttpPort)]
  internal : snapshot.internalNetworkIsInternal = true ∧ snapshot.internalNetworkIpv6 = false
  unprivileged : snapshot.agent.privileged = false ∧ snapshot.agent.capAdd = [] ∧
    txt "all" ∈ snapshot.agent.capDrop.map lower ∧ hasNnp snapshot.agent.securityOpt = true ∧
    snapshot.agent.user = decimalInt S.plan.agentUid ++ txt ":" ++ decimalInt S.plan.agentUid
  unmounted : snapshot.agent.readOnly = true ∧ snapshot.agent.mountTypes = [] ∧
    snapshot.guard.mountTypes = [] ∧ snapshot.gateway.mountTypes = []
  owned : ∀ label ∈ [snapshot.agent.sandboxIdLabel, snapshot.guard.sandboxIdLabel,
    snapshot.gateway.sandboxIdLabel, snapshot.internalNetworkLabel, snapshot.egressNetworkLabel],
    label = some S.plan.sandboxId
  /-- The credentials reach neither the guard nor the gateway. -/
  credentials : ∀ name ∈ checkedCredentials,
    name ∉ snapshot.guard.envNames ∧ name ∉ snapshot.gateway.envNames
  /-- The rules in force are those of the plan. -/
  firewall : ∃ firewall, S.plan.firewallPlan = .ok firewall ∧
    field snapshot.guardReady "firewall_sha256" = .str (firewall.sha256 S.sha) ∧
    field snapshot.firewallCheck "firewall_sha256" = .str (firewall.sha256 S.sha)

/-- No check of a snapshot without failures fails. -/
theorem checks_of_evaluate {snapshot : RuntimeSnapshot}
    (h : evaluateRuntimeSnapshot S.sha S.floatIs S.plan snapshot = .ok []) :
    ∃ firewall, S.plan.firewallPlan = .ok firewall ∧
      ∀ check ∈ hostChecks snapshot ++ agentChecks S.plan snapshot ++ guardChecks S.plan snapshot ++
        gatewayChecks S.plan snapshot ++ credentialChecks S.plan snapshot ++
        proofChecks S.floatIs S.plan snapshot (firewall.sha256 S.sha), check.1 = false := by
  unfold evaluateRuntimeSnapshot at h
  obtain ⟨firewall, hfirewall, h⟩ := bind_ok_iff.mp h
  refine ⟨firewall, hfirewall, fun check hcheck => ?_⟩
  have hnone := List.map_eq_nil_iff.mp (Except.ok.inj h)
  simpa using List.filter_eq_nil_iff.mp hnone check hcheck

theorem isolated_of_evaluate {snapshot : RuntimeSnapshot}
    (h : evaluateRuntimeSnapshot S.sha S.floatIs S.plan snapshot = .ok []) :
    Isolated S snapshot := by
  obtain ⟨firewall, hfirewall, h⟩ := checks_of_evaluate h
  simp only [List.forall_mem_append] at h
  obtain ⟨⟨⟨⟨⟨host, agent⟩, guard⟩, gateway⟩, credentials⟩, proofs⟩ := h
  simp only [hostChecks, agentChecks, guardChecks, gatewayChecks, credentialChecks, proofChecks,
    List.forall_mem_cons, decide_eq_false_iff_not, not_or, not_not, Bool.not_eq_true,
    Bool.not_eq_false] at host agent guard gateway credentials proofs
  obtain ⟨-, -, internal, ipv6, -, -⟩ := host
  obtain ⟨-, user, readOnly, privileged, ⟨capDrop, capAdd⟩, nnp, network, mounts, -, ports, -,
    label, -, -⟩ := agent
  obtain ⟨-, -, -, -, -, -, -, -, guardMounts, -, guardPorts, -, -, guardLabel, -, -⟩ := guard
  obtain ⟨-, -, -, -, -, ⟨gatewayMounts, -⟩, -, -, -, -, gatewayLabel, -, -⟩ := gateway
  obtain ⟨guardEnv, gatewayEnv, internalLabel, egressLabel, -⟩ := credentials
  obtain ⟨⟨-, -, ready, -⟩, ⟨-, -, live⟩, -, -⟩ := proofs
  refine ⟨⟨network, ports, guardPorts⟩, ⟨internal, ipv6⟩, ⟨privileged, capAdd, capDrop, nnp, user⟩,
    ⟨readOnly, mounts, guardMounts, gatewayMounts⟩, ?_, ?_, firewall, hfirewall, ready, live⟩
  · simp [label, guardLabel, gatewayLabel, internalLabel, egressLabel]
  · intro name hname
    simp only [List.any_eq_false, List.contains_iff_mem] at guardEnv gatewayEnv
    exact ⟨guardEnv name hname, gatewayEnv name hname⟩

section Lives

variable [Add τ] [LE τ] [DecidableLE τ]

/-! ## Lives -/

/-- What is done with a sandbox; a start polls for at most so many rounds. -/
inductive Call where
  | start (rounds : ℕ)
  | close

variable (S) in
def Call.run : Call → Method τ Unit
  | .start rounds => do
    let _ ← S.start rounds
  | .close => S.close

variable (S) in
/-- The sandbox after calls one after the other. Behind a call that is still polling there is no
next one. -/
def live : List Call → DockerSandbox τ → DockerSandbox τ
  | [], s => s
  | call :: calls, s =>
    match (call.run S).run s with
    | .ok _ s' => live calls s'
    | .error (.raised _) s' => live calls s'
    | .error .polling s' => s'

theorem Sound.call {s : DockerSandbox τ} (h : Sound S s) (call : Call) :
    Ends (call.run S) s fun _ s' => Sound S s' := by
  cases call with
  | start rounds =>
    exact Ends.bind (h.start rounds) (fun _ _ hs' => Ends.pure hs') fun _ _ hs' => hs'
  | close => exact h.close

theorem Sound.live (calls : List Call) {s : DockerSandbox τ} (h : Sound S s) :
    Sound S (live S calls s) := by
  induction calls generalizing s with
  | nil => exact h
  | cons call calls ih =>
    unfold Isolation.live
    split
    · rename_i hrun
      exact ih ((h.call call).of_ok hrun)
    · rename_i hrun
      exact ih ((h.call call).of_error hrun)
    · rename_i hrun
      exact (h.call call).of_error hrun

variable (S)

/-- **Only what is its own.** However a sandbox is started and closed, and wherever it is stopped,
directly before every command that removes a resource the resource was inspected, and its label was
the id of this sandbox. -/
theorem removal_licensed (calls : List Call) (n : ℕ) :
    Guarded Event.removed (Owned S) ((live S calls {}).log.take n) := by
  have h := (sound_new.live (S := S) calls).removed
  rw [← List.take_append_drop n (live S calls {}).log] at h
  exact h.front

/-- **The agent comes last.** Wherever a sandbox is stopped, directly before every launch of its
agent the guard answered as healthy, and its three checks printed their proofs. -/
theorem launch_licensed (calls : List Call) (n : ℕ) :
    Guarded Event.launched (fun _ => Proved S) ((live S calls {}).log.take n) := by
  have h := (sound_new.live (S := S) calls).launched
  rw [← List.take_append_drop n (live S calls {}).log] at h
  exact h.front

/-- A context as it should be. -/
def DockerContext.tree (context : DockerContext) : ContextTree where
  resolves := true
  isDirectory := true
  containsSymlink := false
  files name := if name = txt ".dockerignore" then
      .file false (some (context.dockerignoreText.map fun c => UInt8.ofNat c.val))
    else .file false (some [])

theorem sample_depth : 16 ≤ 1_000 := by decide

theorem sample_digits : 640 ≤ 4300 := by decide

/-- A sandbox whose gateway cannot be connected, and whose resources answer to its id. -/
def sampleSetting : Setting ℕ where
  plan := { agentImage := txt "agent", gatewayImage := txt "gateway", guardImage := txt "guard",
            endpointDomains := [], agentCommand := [], credentialEnvNames := [],
            sandboxId := txt "0123" }
  outcomes := {
    command number := if number = 7 then .error (txt "docker command failed")
      else if number % 2 = 0 then .ok (txt "0123\n") else .ok []
    health _ := true
    monotonic number := number
    files _ := ⟨.missing, .missing, GATEWAY_CONTEXT.tree, GUARD_CONTEXT.tree⟩ }
  startupTimeoutS := 30
  sha := ⟨fun _ => HASH_PREFIX ++ hex64 0, fun _ => isHash_hex64 0⟩
  digest := id
  limits := ⟨1_000, 4300, sample_depth, sample_digits⟩
  floatIs _ _ := false

/-- The gateway cannot be connected: the start removes it and both networks. -/
example : (live sampleSetting [.start 1, .close] {}).log.filterMap Event.removed =
    [.container (txt "tradeevolve-gateway"), .network (txt "tradeevolve-gateway-egress"),
      .network (txt "tradeevolve-agent-net")] := by
  decide +kernel

/-- What a sandbox hands out: nothing, or the handle of an isolated agent whose five resources are
the ones recorded. -/
inductive HandsOut (S : Setting τ) (s : DockerSandbox τ) : Option SandboxHandle → Prop
  | nothing : HandsOut S s none
  | isolated {handle : SandboxHandle} : Isolated S handle.snapshot →
      s.Records [S.plan.internalNetwork, S.plan.egressNetwork]
        [S.plan.gatewayName, S.plan.guardName, S.plan.agentName] →
      HandsOut S s (some handle)

/-- **A start succeeds, is undone or is refused.** Where something is recorded it is refused and
changes nothing. Otherwise it returns with the five resources created, none of them removed, and a
snapshot without failures, or it raises and has tried to remove what it created, the last first, and
the sandbox may be started again. -/
theorem start_outcome (rounds : ℕ) (s : DockerSandbox τ) :
    Ends (S.start rounds) s fun o s' =>
      Setting.Fresh s ∧ Setting.Started S s o s' ∨
      ¬Setting.Fresh s ∧ s' = s ∧
        o = .error (.raised (.runtimeError (txt "sandbox lifecycle already started"))) := by
  by_cases hs : Setting.Fresh s
  · exact (Setting.start_ends hs rounds).mono fun o s' h => .inl ⟨hs, h⟩
  · exact (start_refused hs rounds).mono fun o s' h => .inr ⟨hs, h.2 ▸ ⟨h.1, rfl⟩⟩

/-- **Closing.** After a `close` the removal of every resource that was ever created has been tried,
and nothing is recorded. It raises exactly when it did not remove all that was recorded, and its
message names each resource that it left. -/
theorem close_outcome (calls : List Call) :
    Ends S.close (live S calls {}) fun o s' => Setting.Fresh s' ∧ Accounted S [] s'.log ∧
      ∃ rounds, Rounds S (Setting.recorded (live S calls {})) rounds ∧
        s'.log = (live S calls {}).log ++ eventsOf rounds ∧
        o = if ∀ round ∈ rounds, round.1 = .removed then .ok ()
          else .error (.raised (.preflightFailure ((txt "; ").intercalate
            (Setting.failuresOfAll (Setting.recorded (live S calls {})) rounds)))) := by
  refine (S.close_ends _).mono ?_
  rintro o s' ⟨hfresh, rounds, hrounds, hlog, ho⟩
  refine ⟨hfresh, ?_, rounds, hrounds, hlog, ho⟩
  rw [hlog]
  exact (sound_new.live calls).accounted.rounds hrounds

end Lives

end WagmiBench.Sandbox.Isolation
