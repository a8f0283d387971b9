import WagmiBench.Sandbox.Isolation.Lifecycle

/-!
# What a sandbox creates and removes

Every removal in the log of a sandbox follows the inspection that showed the resource to be its own,
the agent is launched directly after the proofs of the guard, and a start that fails removes what it
created, the last first. The log is judged by its commands alone.
-/

namespace WagmiBench.Sandbox.Isolation

open WagmiBench.Lib WagmiBench.Spec WagmiBench.Core WagmiBench.Harness WagmiBench.Data

variable {τ α β : Type}

/-! ## Reading the log -/

/-- The resource that a command creates. -/
def createdBy (words : Argv) : Option Resource :=
  if words.take 4 = argv ["docker", "run", "--detach", "--name"] then words[4]?.map .container
  else if words.take 3 = argv ["docker", "network", "create"] then words.getLast?.map .network
  else none

/-- The resource that a command removes. -/
def removedBy (words : Argv) : Option Resource :=
  if words.take 3 = argv ["docker", "rm", "--force"] then words[3]?.map .container
  else if words.take 3 = argv ["docker", "network", "rm"] then words[3]?.map .network
  else none

namespace Event

/-- The words of a command. -/
def words : Event τ → Argv
  | command words _ | launch words _ => words
  | health _ | monotonic _ | sleep | files => []

def created (e : Event τ) : Option Resource := createdBy e.words

def removed (e : Event τ) : Option Resource := removedBy e.words

/-- The launch of the agent. -/
def launched : Event τ → Option Unit
  | launch _ _ => some ()
  | _ => none

/-- Nothing is created, removed or launched. -/
structure Quiet (e : Event τ) : Prop where
  created : e.created = none
  removed : e.removed = none
  launched : e.launched = none

end Event

/-- The words of a command that neither creates nor removes anything. -/
def Idle (words : Argv) : Prop := createdBy words = none ∧ removedBy words = none

theorem Idle.quiet {words : Argv} (h : Idle words) (answer : Except Text Text) :
    (Event.command words answer : Event τ).Quiet :=
  ⟨h.1, h.2, rfl⟩

theorem Resource.idle_inspect (r : Resource) : Idle r.inspect := by
  cases r <;> simp [Idle, createdBy, removedBy, inspect, argv]

theorem Resource.removedBy_remove (r : Resource) : removedBy r.remove = some r := by
  cases r <;> simp [removedBy, remove, argv]

theorem Resource.createdBy_remove (r : Resource) : createdBy r.remove = none := by
  cases r <;> simp [createdBy, remove, argv]

/-! ## Probing -/

/-- The sandbox has only looked: its log is longer by quiet entries. -/
def Looks (s s' : DockerSandbox τ) : Prop :=
  ∃ events, s' = { s with log := s.log ++ events } ∧ ∀ e ∈ events, e.Quiet

instance : Std.Refl (Looks (τ := τ)) := ⟨fun s => ⟨[], by simp, by simp⟩⟩

instance : IsTrans (DockerSandbox τ) Looks := ⟨by
  rintro a _ _ ⟨events, rfl, h⟩ ⟨events', rfl, h'⟩
  refine ⟨events ++ events', by simp, fun e he => ?_⟩
  exact (List.mem_append.mp he).elim (h e) (h' e)⟩

/-- A call that only looks. -/
abbrev Looking (m : Method τ α) : Prop := Moves Looks m

theorem interact_ends {outcome : ℕ → α} {event : α → Event τ} (s : DockerSandbox τ) :
    Ends (interact outcome event) s fun o s' => ∃ a, o = .ok a ∧
      s' = { s with log := s.log ++ [event a] } :=
  ⟨_, rfl, rfl⟩

theorem looking_interact {outcome : ℕ → α} {event : α → Event τ} (h : ∀ a, (event a).Quiet) :
    Looking (interact outcome event) := fun s =>
  (interact_ends s).mono fun o s' => by
    rintro ⟨a, -, rfl⟩
    exact ⟨[event a], rfl, by simpa using h a⟩

theorem looking_raise (e : Raised) : Looking (raise e : Method τ α) := Moves.throw _

theorem looking_ofExcept (x : Except Raised α) : Looking (ofExcept x : Method τ α) := by
  cases x with
  | ok a => exact Moves.pure a
  | error e => exact looking_raise e

theorem looking_onPreflightFailure {m handler : Method τ α} (hm : Looking m)
    (hh : Looking handler) : Looking (onPreflightFailure m handler) := by
  refine Moves.tryCatch hm fun e => ?_
  split
  · exact hh
  · exact Moves.throw _

theorem looking_forM {xs : List α} {f : α → Method τ PUnit} (h : ∀ x, Looking (f x)) :
    Looking (xs.forM f) := by
  induction xs with
  | nil => exact Moves.pure _
  | cons x xs ih => exact Moves.bind (h x) fun _ => ih

namespace Setting

variable (S : Setting τ)

/-- What one command adds to the log. -/
theorem runText_ends (words : Argv) (s : DockerSandbox τ) :
    Ends (S.runText words) s fun o s' => ∃ answer, s' = { s with
      log := s.log ++ [.command words answer] } ∧
        o = answer.mapError fun message => .raised (.preflightFailure message) := by
  unfold runText
  refine Ends.bind (interact_ends s) ?_ ?_
  · rintro answer s' ⟨_, h, rfl⟩
    obtain rfl := Except.ok.inj h
    cases answer with
    | ok text => exact Ends.pure ⟨_, rfl, rfl⟩
    | error message => exact Ends.throw ⟨_, rfl, rfl⟩
  · rintro e s' ⟨_, h, -⟩
    cases h

theorem runWithEnv_ends (words : Argv) (s : DockerSandbox τ) :
    Ends (S.runWithEnv words) s fun _ s' => ∃ answer, s' = { s with
      log := s.log ++ [.launch words answer] } := by
  unfold runWithEnv
  refine Ends.bind (interact_ends s) ?_ ?_
  · rintro answer s' ⟨_, h, rfl⟩
    obtain rfl := Except.ok.inj h
    cases answer with
    | ok text => exact Ends.pure ⟨_, rfl⟩
    | error message => exact Ends.throw ⟨_, rfl⟩
  · rintro e s' ⟨answer, h, -⟩
    cases h

theorem looking_runText {words : Argv} (h : Idle words) : Looking (S.runText words) := fun s =>
  (S.runText_ends words s).mono fun o s' => by
    rintro ⟨answer, rfl, -⟩
    exact ⟨_, rfl, by simpa using h.quiet answer⟩

theorem looking_healthCheck : Looking S.healthCheck :=
  looking_interact fun _ => ⟨rfl, rfl, rfl⟩

theorem looking_monotonic : Looking S.monotonic :=
  looking_interact fun _ => ⟨rfl, rfl, rfl⟩

theorem looking_sleep : Looking (sleep : Method τ Unit) :=
  looking_interact fun _ => ⟨rfl, rfl, rfl⟩

theorem looking_look : Looking S.look := looking_interact fun _ => ⟨rfl, rfl, rfl⟩

theorem looking_readProof (proof : String × String) : Looking (S.readProof proof) :=
  Moves.bind (S.looking_runText (by simp [Idle, guardCheck, createdBy, removedBy, argv])) fun _ =>
    Moves.bind (looking_ofExcept _) fun _ => looking_ofExcept _

theorem looking_guardReady : Looking S.guardReady := by
  unfold guardReady
  refine Moves.bind (S.looking_runText (by simp [Idle, inspectGuard, createdBy, removedBy, argv]))
    fun status => ?_
  dsimp only
  split
  · exact Moves.bind (looking_forM S.looking_readProof) fun _ => Moves.pure _
  · split
    · refine Moves.bind (looking_onPreflightFailure ?_ (Moves.pure _)) fun _ => looking_raise _
      exact Moves.bind (S.looking_runText (by simp [Idle, createdBy, removedBy, argv]))
        fun _ => looking_ofExcept _
    · exact Moves.pure _

theorem looking_agentHealthy : Looking S.agentHealthy := by
  unfold agentHealthy
  refine Moves.bind S.looking_healthCheck fun up => ?_
  split
  · exact Moves.pure _
  · refine Moves.bind (S.looking_runText (by simp [Idle, createdBy, removedBy, argv]))
      fun running => ?_
    dsimp only
    split
    · exact Moves.bind (looking_raise _) fun _ => Moves.pure _
    · exact Moves.pure _

theorem looking_probe {words : Argv} (h : Idle words) : Looking (S.probe words) :=
  Moves.bind (S.looking_runText h) fun _ => looking_ofExcept _

theorem looking_auditContexts : Looking S.auditContexts :=
  Moves.bind S.looking_look fun _ => Moves.bind (looking_ofExcept _) fun _ =>
    Moves.bind S.looking_look fun _ => looking_ofExcept _

theorem looking_collect : Looking S.collect := by
  have idle : ∀ flag, Idle (S.guardCheck flag) := by
    simp [Idle, guardCheck, createdBy, removedBy, argv]
  unfold collect
  refine Moves.bind S.looking_auditContexts fun _ => ?_
  refine Moves.bind (S.looking_runText (by simp [Idle, createdBy, removedBy, argv])) fun _ => ?_
  refine Moves.bind (S.looking_probe (by simp [Idle, createdBy, removedBy, argv])) fun _ => ?_
  refine Moves.bind
    (S.looking_probe (by simp [Idle, inspectContainers, createdBy, removedBy, argv])) fun _ => ?_
  refine Moves.bind (S.looking_probe (by simp [Idle, inspectNetworks, createdBy, removedBy, argv]))
    fun _ => ?_
  refine Moves.bind (S.looking_probe (idle _)) fun _ => ?_
  refine Moves.bind (S.looking_probe (idle _)) fun _ => ?_
  exact Moves.bind (S.looking_probe (idle _)) fun _ => looking_ofExcept _

theorem looking_requireReady : Looking S.requireReady :=
  Moves.bind S.looking_look fun _ => Moves.bind (looking_ofExcept _) fun _ =>
    Moves.bind S.looking_collect fun _ => Moves.bind (looking_ofExcept _) fun _ =>
      Moves.bind (looking_ofExcept _) fun _ => Moves.pure _

section Waiting

variable [LE τ] [DecidableLE τ]

theorem looking_poll {predicate : Method τ Bool} (h : Looking predicate) (failure : Text)
    (deadline : τ) (rounds : ℕ) : Looking (S.poll predicate failure deadline rounds) := by
  induction rounds with
  | zero => exact Moves.throw _
  | succ rounds ih =>
    unfold poll
    refine Moves.bind h fun done => ?_
    split
    · exact Moves.pure _
    · refine Moves.bind S.looking_monotonic fun now => ?_
      split
      · exact looking_raise _
      · exact Moves.bind looking_sleep fun _ => ih

theorem looking_waitUntil [Add τ] {predicate : Method τ Bool} (h : Looking predicate) (rounds : ℕ)
    (failure : Text) : Looking (S.waitUntil rounds predicate failure) :=
  Moves.bind S.looking_monotonic fun _ => S.looking_poll h failure _ rounds

end Waiting

end Setting

/-! ## Removing -/

/-- What became of a resource that was to be removed. -/
inductive Fate where
  | removed
  /-- It is not labelled with the sandbox id, or could not be inspected. -/
  | unowned
  /-- The command that removes it failed. -/
  | failed
  deriving DecidableEq

/-- One round of a removal: the commands, by what became of the resource. -/
inductive Round (S : Setting τ) (r : Resource) : Fate → List (Event τ) → Prop
  | unanswered (message : Text) : Round S r .unowned [.command r.inspect (.error message)]
  | foreign {raw : Text} : strip raw ≠ S.plan.sandboxId →
      Round S r .unowned [.command r.inspect (.ok raw)]
  | removed {raw : Text} (printed : Text) : strip raw = S.plan.sandboxId →
      Round S r .removed [.command r.inspect (.ok raw), .command r.remove (.ok printed)]
  | failed {raw : Text} (message : Text) : strip raw = S.plan.sandboxId →
      Round S r .failed [.command r.inspect (.ok raw), .command r.remove (.error message)]

/-- The rounds of a removal, one for each resource in order. -/
abbrev Rounds (S : Setting τ) (resources : List Resource)
    (rounds : List (Fate × List (Event τ))) : Prop :=
  List.Forall₂ (fun r round => Round S r round.1 round.2) resources rounds

/-- What the rounds add to the log. -/
def eventsOf (rounds : List (Fate × List (Event τ))) : List (Event τ) :=
  (rounds.map Prod.snd).flatten

/-- An inspection that shows the resource to be the sandbox's own. -/
def Owned (S : Setting τ) (r : Resource) (events : List (Event τ)) : Prop :=
  ∃ raw, events = [.command r.inspect (.ok raw)] ∧ strip raw = S.plan.sandboxId

namespace Setting

variable (S : Setting τ)

/-- The failures that `close` reports of one resource. -/
def failuresOf (r : Resource) : Fate → List Text
  | .removed => []
  | .unowned => [txt "refused cleanup of unowned " ++ r.describe]
  | .failed => [txt "failed cleanup of " ++ r.describe]

theorem owned_ends (r : Resource) (s : DockerSandbox τ) :
    Ends (S.owned r) s fun o s' => ∃ answer, s' = { s with
      log := s.log ++ [.command r.inspect answer] } ∧
        o = .ok (answer.toOption.any fun raw => strip raw = S.plan.sandboxId) := by
  refine Ends.tryCatch (R := fun o s' => ∃ answer, s' = { s with
      log := s.log ++ [.command r.inspect answer] } ∧
        o = (answer.map fun raw => decide (strip raw = S.plan.sandboxId)).mapError
          fun message => .raised (.preflightFailure message)) ?_ ?_ ?_
  · refine Ends.bind (S.runText_ends r.inspect s) ?_ ?_
    · rintro raw s' ⟨answer, rfl, h⟩
      cases answer with
      | ok text =>
        obtain rfl := Except.ok.inj h
        exact Ends.pure ⟨_, rfl, rfl⟩
      | error message => cases h
    · rintro e s' ⟨answer, rfl, h⟩
      cases answer with
      | ok text => cases h
      | error message => exact ⟨_, rfl, congrArg Except.error (Except.error.inj h)⟩
  · rintro own s' ⟨answer, rfl, h⟩
    cases answer with
    | ok text => exact ⟨_, rfl, h⟩
    | error message => cases h
  · rintro e s' ⟨answer, rfl, h⟩
    cases answer with
    | ok text => cases h
    | error message =>
      obtain rfl := Except.error.inj h
      exact Ends.pure ⟨_, rfl, rfl⟩

/-- The body of both loops over the resources: `found` for one that is not owned. -/
theorem remove_ends (found : Method τ α) (gone missed : α) (r : Resource) (s : DockerSandbox τ)
    (hfound : ∀ s, Ends found s fun o s' => o = .ok missed ∧ s' = s) :
    Ends (do
      if ← S.owned r then
        let _ ← S.runText r.remove
        return gone
      else found) s fun o s' => ∃ fate events, Round S r fate events ∧
        s' = { s with log := s.log ++ events } ∧
        match fate with
        | .removed => o = .ok gone
        | .unowned => o = .ok missed
        | .failed => ∃ message, o = .error (.raised (.preflightFailure message)) := by
  refine Ends.bind (S.owned_ends r s) ?_ ?_
  · rintro own s' ⟨answer, rfl, h⟩
    obtain rfl := Except.ok.inj h
    split
    · rename_i hown
      cases answer with
      | error message => cases hown
      | ok raw =>
        have hraw : strip raw = S.plan.sandboxId := of_decide_eq_true hown
        refine Ends.bind (S.runText_ends r.remove _) ?_ ?_
        · rintro _ s' ⟨printed, rfl, hprinted⟩
          cases printed with
          | error message => cases hprinted
          | ok text =>
            exact Ends.pure ⟨.removed, _, .removed text hraw, by simp, rfl⟩
        · rintro e s' ⟨printed, rfl, hprinted⟩
          cases printed with
          | ok text => cases hprinted
          | error message =>
            exact ⟨.failed, _, .failed message hraw, by simp, message,
              congrArg Except.error (Except.error.inj hprinted)⟩
    · rename_i hown
      refine (hfound _).mono ?_
      rintro o s' ⟨rfl, rfl⟩
      cases answer with
      | error message => exact ⟨.unowned, _, .unanswered message, rfl, rfl⟩
      | ok raw => exact ⟨.unowned, _, .foreign (by simpa [Except.toOption] using hown), rfl, rfl⟩
  · rintro e s' ⟨answer, -, h⟩
    cases h

theorem cleanupOne_ends (r : Resource) (s : DockerSandbox τ) :
    Ends (S.cleanupOne r) s fun o s' => o = .ok () ∧ ∃ fate events, Round S r fate events ∧
      s' = { s with log := s.log ++ events } := by
  refine Ends.tryCatch (S.remove_ends (pure ()) () () r s
    fun _ => Ends.pure ⟨rfl, rfl⟩) ?_ ?_
  · rintro _ s' ⟨fate, events, hround, hs, -⟩
    exact ⟨rfl, fate, events, hround, hs⟩
  · rintro e s' ⟨fate, events, hround, hs, ho⟩
    cases fate with
    | removed => cases ho
    | unowned => cases ho
    | failed =>
      obtain ⟨message, h⟩ := ho
      obtain rfl := Except.error.inj h
      exact Ends.pure ⟨rfl, .failed, events, hround, hs⟩

theorem closeOne_ends (failures : List Text) (r : Resource) (s : DockerSandbox τ) :
    Ends (S.closeOne failures r) s fun o s' => ∃ fate events, Round S r fate events ∧
      s' = { s with log := s.log ++ events } ∧ o = .ok (failures ++ failuresOf r fate) := by
  refine Ends.tryCatch (S.remove_ends
    (pure (failures ++ [txt "refused cleanup of unowned " ++ r.describe])) failures
    (failures ++ [txt "refused cleanup of unowned " ++ r.describe]) r s
    fun _ => Ends.pure ⟨rfl, rfl⟩) ?_ ?_
  · rintro left s' ⟨fate, events, hround, hs, ho⟩
    refine ⟨fate, events, hround, hs, ?_⟩
    cases fate with
    | removed => simpa [failuresOf] using ho
    | unowned => exact ho
    | failed =>
      obtain ⟨message, h⟩ := ho
      cases h
  · rintro e s' ⟨fate, events, hround, hs, ho⟩
    cases fate with
    | removed => cases ho
    | unowned => cases ho
    | failed =>
      obtain ⟨message, h⟩ := ho
      obtain rfl := Except.error.inj h
      exact Ends.pure ⟨.failed, events, hround, hs, rfl⟩

/-- One after the other, whatever becomes of each. -/
theorem cleanup_ends (resources : List Resource) (s : DockerSandbox τ) :
    Ends (resources.forM S.cleanupOne) s fun o s' => o = .ok () ∧ ∃ rounds,
      Rounds S resources rounds ∧ s' = { s with log := s.log ++ eventsOf rounds } := by
  induction resources generalizing s with
  | nil => exact Ends.pure ⟨rfl, [], .nil, by simp [eventsOf]⟩
  | cons r resources ih =>
    refine Ends.bind (S.cleanupOne_ends r s) ?_ (by simp)
    rintro ⟨⟩ _ ⟨-, fate, events, hround, rfl⟩
    refine (ih _).mono ?_
    rintro o s' ⟨rfl, rounds, hrounds, rfl⟩
    exact ⟨rfl, (fate, events) :: rounds, .cons hround hrounds, by simp [eventsOf]⟩

/-- The failures that `close` reports. -/
def failuresOfAll (resources : List Resource) (rounds : List (Fate × List (Event τ))) : List Text :=
  (resources.zip rounds).flatMap fun (r, round) => failuresOf r round.1

theorem closeAll_ends (resources : List Resource) (failures : List Text) (s : DockerSandbox τ) :
    Ends (resources.foldlM S.closeOne failures) s fun o s' => ∃ rounds, Rounds S resources rounds ∧
      s' = { s with log := s.log ++ eventsOf rounds } ∧
        o = .ok (failures ++ failuresOfAll resources rounds) := by
  induction resources generalizing failures s with
  | nil => exact Ends.pure ⟨[], .nil, by simp [eventsOf], by simp [failuresOfAll]⟩
  | cons r resources ih =>
    rw [List.foldlM_cons]
    refine Ends.bind (S.closeOne_ends failures r s) ?_ ?_
    · rintro left _ ⟨fate, events, hround, rfl, h⟩
      obtain rfl := Except.ok.inj h
      refine (ih _ _).mono ?_
      rintro o s' ⟨rounds, hrounds, rfl, rfl⟩
      exact ⟨(fate, events) :: rounds, .cons hround hrounds, by simp [eventsOf],
        by simp [failuresOfAll]⟩
    · rintro e s' ⟨fate, events, -, -, h⟩
      cases h

/-- A sandbox that nothing is recorded of: `start` may be called. -/
structure Fresh (s : DockerSandbox τ) : Prop where
  containers : s.createdContainers = []
  networks : s.createdNetworks = []
  handle : s.handle = none

theorem cleanupBestEffort_ends (s : DockerSandbox τ) :
    Ends S.cleanupBestEffort s fun o s' => o = .ok () ∧ Fresh s' ∧ ∃ rounds,
      Rounds S (recorded s) rounds ∧ s'.log = s.log ++ eventsOf rounds := by
  refine Ends.get_bind (Ends.bind (S.cleanup_ends (recorded s) s) ?_ (by simp))
  rintro ⟨⟩ _ ⟨-, rounds, hrounds, rfl⟩
  exact Ends.modify ⟨rfl, ⟨rfl, rfl, rfl⟩, rounds, hrounds, rfl⟩

/-- **Closing.** Whatever is recorded is tried, the last first, and nothing stays recorded; `close`
raises exactly when some resource was not removed, and names each of them. -/
theorem close_ends (s : DockerSandbox τ) :
    Ends S.close s fun o s' => Fresh s' ∧ ∃ rounds, Rounds S (recorded s) rounds ∧
      s'.log = s.log ++ eventsOf rounds ∧
      o = if ∀ round ∈ rounds, round.1 = .removed then .ok ()
        else .error (.raised (.preflightFailure
          ((txt "; ").intercalate (failuresOfAll (recorded s) rounds)))) := by
  have clean : ∀ {resources : List Resource} {rounds : List (Fate × List (Event τ))},
      Rounds S resources rounds →
      (failuresOfAll resources rounds = [] ↔ ∀ round ∈ rounds, round.1 = .removed) := by
    intro resources rounds h
    induction h with
    | nil => simp [failuresOfAll]
    | @cons r round resources rounds hround hrounds ih =>
      have : failuresOf r round.1 = [] ↔ round.1 = .removed := by
        cases round.1 <;> simp [failuresOf]
      simp only [failuresOfAll] at ih
      simp [failuresOfAll, this, ih]
  refine Ends.get_bind (Ends.bind (S.closeAll_ends (recorded s) [] s) ?_ ?_)
  · rintro failures _ ⟨rounds, hrounds, rfl, h⟩
    obtain rfl := Except.ok.inj h
    rw [List.nil_append]
    refine Ends.modify_bind ?_
    split
    · rename_i hfailures
      refine Ends.throw ⟨⟨rfl, rfl, rfl⟩, rounds, hrounds, rfl, ?_⟩
      rw [if_neg (fun h => hfailures ((clean hrounds).mpr h))]
    · rename_i hfailures
      refine Ends.pure ⟨⟨rfl, rfl, rfl⟩, rounds, hrounds, rfl, ?_⟩
      rw [if_pos ((clean hrounds).mp (by simpa using hfailures))]
  · rintro e s' ⟨rounds, -, -, h⟩
    cases h

end Setting

end WagmiBench.Sandbox.Isolation
