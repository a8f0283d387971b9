import WagmiBench.Agents.Boundaries
import WagmiBench.Core.Engine.Lockstep
import WagmiBench.Lib.JsonPlain

/-!
# Requests on the wire

A request the engine builds is a plain document, so the server reads its canonical bytes as the same
mapping, and the policy behind it decides what it would have decided in process.
-/

namespace WagmiBench.Agents

open WagmiBench.Lib WagmiBench.Core WagmiBench.Spec WagmiBench.Harness

/-! ## Plain documents -/

theorem plain_jsonObj {n : ℕ} {members : List (String × Json)} (hkeys : (members.map Prod.fst).Nodup)
    (h : ∀ m ∈ members, Json.Plain n m.2) : Json.Plain (n + 1) (jsonObj members) := by
  refine Json.plain_obj ?_ (List.forall_mem_map.mpr h)
  have : (members.map fun m => (txt m.1, m.2)).map Prod.fst = (members.map Prod.fst).map txt := by
    simp
  rw [Json.NodupKeys, this]
  exact hkeys.map txt_injective

theorem plain_jsonOptInt {n : ℕ} {i : Option ℤ} : Json.Plain n (jsonOptInt i) := by
  cases i <;> simp [jsonOptInt]

theorem plain_bar (bar : BarView) : Json.Plain 1 bar.toJson :=
  plain_jsonObj (by simp) (by simp)

theorem plain_print (p : FundingPrint) : Json.Plain 1 p.toJson :=
  plain_jsonObj (by simp) (by simp)

theorem plain_funding (f : FundingView) : Json.Plain 3 f.toJson := by
  have prints : Json.Plain 2 (.arr (f.prints.map FundingPrint.toJson)) :=
    Json.plain_arr (by simp [plain_print])
  exact plain_jsonObj (by simp) (by simp [prints])

theorem plain_market (m : MarketView) : Json.Plain 4 m.toJson := by
  have bars : Json.Plain 3 (.arr (m.bars.map BarView.toJson)) :=
    (Json.plain_arr (n := 1) (by simp [plain_bar])).mono (by decide)
  exact plain_jsonObj (by simp) (by simp [bars, plain_funding])

theorem plain_position (p : PositionView) : Json.Plain 1 p.toJson :=
  plain_jsonObj (by simp) (by simp [plain_jsonOptInt])

theorem plain_constraint (c : Constraint) : Json.Plain 1 c.toJson :=
  plain_jsonObj (by simp) (by simp)

theorem plain_episode (e : EpisodeView) : Json.Plain 1 e.toJson :=
  plain_jsonObj (by simp) (by simp)

/-- An observation of markets with distinct names is plain. -/
theorem plain_observation {obs : Observation} (hmarkets : (obs.markets.map Prod.fst).Nodup)
    (hposition : (obs.position.map Prod.fst).Nodup) : Json.Plain 6 obs.toJson := by
  have markets : Json.Plain 5 (.obj (obs.markets.map fun m => (m.1, m.2.toJson))) :=
    Json.plain_obj (by simpa [Json.NodupKeys, Function.comp_def] using hmarkets)
      (List.forall_mem_map.mpr fun m _ => plain_market m.2)
  have position : Json.Plain 5 (.obj (obs.position.map fun p => (p.1, p.2.toJson))) :=
    (Json.plain_obj (n := 1) (by simpa [Json.NodupKeys, Function.comp_def] using hposition)
      (List.forall_mem_map.mpr fun p _ => plain_position p.2)).mono (by decide)
  have account : Json.Plain 5 (jsonObj [("nav_micro", .int obs.navMicro),
      ("cash_micro", .int obs.cashMicro), ("realized_pnl_micro", .int obs.realizedPnlMicro)]) :=
    plain_jsonObj (by simp) (by simp)
  have constraints : Json.Plain 4 (.arr (obs.constraints.map Constraint.toJson)) :=
    (Json.plain_arr (n := 1) (by simp [plain_constraint])).mono (by decide)
  have risk : Json.Plain 5 (jsonObj [("constraints", .arr (obs.constraints.map Constraint.toJson)),
      ("kill_switch_active", .bool obs.killSwitchActive)]) :=
    plain_jsonObj (by simp) (by simp [constraints])
  have episode : Json.Plain 5 obs.episode.toJson := (plain_episode _).mono (by decide)
  exact plain_jsonObj (by simp) (by
    simp only [List.mem_cons, List.not_mem_nil, or_false, forall_eq_or_imp, forall_eq,
      Json.plain_str, Json.plain_int, markets, position, account, risk, episode, and_self])

theorem plain_request {request : Request}
    (hmarkets : (request.observation.markets.map Prod.fst).Nodup)
    (hposition : (request.observation.position.map Prod.fst).Nodup) :
    Json.Plain 7 (requestJson request) := by
  refine plain_jsonObj (by simp) ?_
  simp only [List.mem_cons, List.not_mem_nil, or_false, forall_eq_or_imp, forall_eq,
    Json.plain_str, Json.plain_int, plain_observation hmarkets hposition, true_and]
  cases request.retry with
  | none => exact Json.plain_null
  | some retry => exact (plain_jsonObj (n := 0) (by simp) (by simp)).mono (by decide)

/-! ## What an observation of a run holds -/

theorem observeTurn_document {env : ProfileEnv} {episodeId : Text} {clock : TurnClock}
    {core : ProfileCore} {drawdownUsed turnoverUsed : ℤ} {obs : Observation}
    (haliases : env.pack.marketAliases = [env.aliasName])
    (h : observeTurn env episodeId clock core drawdownUsed turnoverUsed = .ok obs) :
    (obs.markets.map Prod.fst).Nodup ∧ (obs.position.map Prod.fst).Nodup ∧
      0 < obs.episode.responseDeadlineMs := by
  simp only [observeTurn, buildObservation, bind_ok_iff, require_eq_ok, haliases, mapM_eq_ok,
    pure_eq_ok, Except.ok.injEq] at h
  obtain ⟨position, -, _, -, _, ⟨-, -, _, -, -, -, -, -, effective, -, -, -, realTs, -, virtual, -, builds,
    hbuilds, _, -, -, -, rfl⟩, rfl⟩ := h
  obtain ⟨build, rest, -, hrest, rfl⟩ := List.forall₂_cons_left_iff.mp hbuilds
  obtain rfl := List.forall₂_nil_left_iff.mp hrest
  exact ⟨by simp, by simp, env.config.response_deadline_pos⟩

end WagmiBench.Agents
