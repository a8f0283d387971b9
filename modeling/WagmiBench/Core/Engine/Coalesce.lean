import WagmiBench.Core.Engine.Decision
import WagmiBench.Core.TextOrder
import WagmiBench.Lib.Keyed

/-!
# Coalescing harness facts

`_coalesce_harness_events` of `core/engine.py` adds up the facts of each blocked destination and
orders them. Its result has the totals of its input, does not depend on the input's order, and is
left as it is by a second pass.
-/

namespace WagmiBench.Core

open WagmiBench.Lib WagmiBench.Harness

/-! ## The order of the facts -/

namespace BlockKey

/-- What `sorted` compares. -/
def sortKey (key : BlockKey) : List ℕ ×ₗ ℤ ×ₗ List ℕ :=
  toLex (key.destination.map Fin.val, toLex (key.port.getD (-1), key.protocol.map Fin.val))

theorem le_iff {a b : BlockKey} : a.le b = true ↔ a.sortKey ≤ b.sortKey := by
  have texts : Function.Injective (List.map Fin.val : Text → List ℕ) :=
    List.map_injective_iff.mpr Fin.val_injective
  rw [sortKey, sortKey, Prod.Lex.toLex_le_toLex, Prod.Lex.toLex_le_toLex]
  by_cases hdestination : a.destination = b.destination
  · by_cases hport : a.port.getD (-1) = b.port.getD (-1)
    · simp [le, hdestination, hport, textLe_iff]
    · simp [le, hdestination, hport]
  · simp [le, hdestination, textLe_iff, lt_iff_le_and_ne, texts.eq_iff]

/-- A port is absent, or a number. -/
def PortInRange (key : BlockKey) : Prop := ∀ port ∈ key.port, 0 ≤ port

/-- `-1` stands for an absent port, and for nothing else. -/
theorem sortKey_injective {a b : BlockKey} (ha : a.PortInRange) (hb : b.PortInRange)
    (h : a.sortKey = b.sortKey) : a = b := by
  obtain ⟨destination, port, protocol⟩ := a
  obtain ⟨destination', port', protocol'⟩ := b
  have texts : Function.Injective (List.map Fin.val : Text → List ℕ) :=
    List.map_injective_iff.mpr Fin.val_injective
  simp only [sortKey, EmbeddingLike.apply_eq_iff_eq, Prod.mk.injEq, texts.eq_iff] at h
  obtain ⟨rfl, hport, rfl⟩ := h
  have : port = port' := by
    cases port with
    | none =>
      cases port' with
      | none => rfl
      | some p =>
        have := hb p rfl
        simp only [Option.getD_none, Option.getD_some] at hport
        omega
    | some p =>
      have hp := ha p rfl
      cases port' with
      | none =>
        simp only [Option.getD_none, Option.getD_some] at hport
        omega
      | some q => simpa using hport
  rw [this]

end BlockKey

/-- The order of coalesced facts. -/
abbrev FactLe (a b : BlockFact) : Prop := a.key.le b.key = true

instance : Std.Total FactLe := ⟨fun a b => by
  simp only [FactLe, BlockKey.le_iff]
  exact le_total _ _⟩

instance : IsTrans BlockFact FactLe := ⟨fun a b c hab hbc => by
  simp only [FactLe, BlockKey.le_iff] at hab hbc ⊢
  exact le_trans hab hbc⟩

/-! ## Counting -/

/-- What validation establishes about a fact. -/
structure BlockFact.Checked (fact : BlockFact) : Prop where
  count_pos : 1 ≤ fact.count
  count_le : fact.count ≤ MAX_IJSON_INT
  port_range : fact.key.PortInRange

@[simp] theorem BlockFact.key_with_count (fact : BlockFact) (count : ℤ) :
    BlockFact.key { fact with count := count } = fact.key := rfl

/-- The total of a blocked destination. -/
abbrev blockedTotal (facts : List BlockFact) (key : BlockKey) : ℤ :=
  totalOf BlockFact.key BlockFact.count facts key

theorem blockedTotal_concat (facts : List BlockFact) (fact : BlockFact) (key : BlockKey) :
    blockedTotal (facts ++ [fact]) key =
      blockedTotal facts key + if fact.key = key then fact.count else 0 := by
  rw [blockedTotal, totalOf_append, totalOf_singleton]

theorem blockedTotal_concat_with (facts : List BlockFact) (fact : BlockFact) (count : ℤ)
    (key : BlockKey) : blockedTotal (facts ++ [{ fact with count := count }]) key =
      blockedTotal facts key + if fact.key = key then count else 0 :=
  blockedTotal_concat facts { fact with count := count } key

/-- The count of all facts. -/
def blockedCount (facts : List BlockFact) : ℤ := (facts.map BlockFact.count).sum

@[simp] theorem blockedCount_nil : blockedCount [] = 0 := rfl

@[simp] theorem blockedCount_append (front back : List BlockFact) :
    blockedCount (front ++ back) = blockedCount front + blockedCount back := by
  simp [blockedCount]

theorem blockedCount_perm {facts others : List BlockFact} (h : facts.Perm others) :
    blockedCount facts = blockedCount others :=
  (h.map _).sum_eq

/-- `counts` holds what `facts` add up to, one entry per destination. -/
structure Tallies (counts facts : List BlockFact) : Prop where
  nodup : (counts.map BlockFact.key).Nodup
  keys : ∀ key, key ∈ counts.map BlockFact.key ↔ key ∈ facts.map BlockFact.key
  totals : ∀ key, blockedTotal counts key = blockedTotal facts key
  count : blockedCount counts = blockedCount facts

namespace Tallies

variable {counts facts : List BlockFact}

/-- The entries are determined by what was counted. -/
theorem mem_iff (h : Tallies counts facts) (fact : BlockFact) :
    fact ∈ counts ↔ fact.key ∈ facts.map BlockFact.key ∧
      fact.count = blockedTotal facts fact.key := by
  rw [← h.keys, ← h.totals]
  constructor
  · intro hmem
    exact ⟨List.mem_map_of_mem hmem, (totalOf_of_mem h.nodup hmem).symm⟩
  · rintro ⟨hkey, hcount⟩
    obtain ⟨other, hmem, hother⟩ := List.mem_map.mp hkey
    have hsame : other.count = fact.count := by
      rw [hcount, ← hother, blockedTotal, totalOf_of_mem h.nodup hmem]
    obtain ⟨destination, port, protocol, count⟩ := fact
    obtain ⟨destination', port', protocol', count'⟩ := other
    simp only [BlockFact.key, BlockKey.mk.injEq] at hother
    obtain ⟨rfl, rfl, rfl⟩ := hother
    obtain rfl : count' = count := hsame
    exact hmem

theorem perm_of_perm {counts' facts' : List BlockFact} (h : Tallies counts facts)
    (h' : Tallies counts' facts') (hfacts : facts.Perm facts') : counts.Perm counts' := by
  refine (List.perm_ext_iff_of_nodup h.nodup.of_map h'.nodup.of_map).mpr fun fact => ?_
  rw [h.mem_iff, h'.mem_iff, (hfacts.map BlockFact.key).mem_iff, blockedTotal,
    totalOf_perm hfacts]

/-- What `counts.get(key, 0)` finds. -/
theorem find_count (h : Tallies counts facts) (key : BlockKey) :
    ((counts.find? fun f => f.key = key).map BlockFact.count).getD 0 = blockedTotal facts key := by
  rw [← h.totals]
  cases hfind : counts.find? (fun f => f.key = key) with
  | none =>
    have none : key ∉ counts.map BlockFact.key := fun h => by
      obtain ⟨fact, hmem, hkey⟩ := List.mem_map.mp h
      exact List.find?_eq_none.mp hfind fact hmem (decide_eq_true hkey)
    rw [blockedTotal, totalOf_eq_zero none]
    rfl
  | some fact =>
    have hkey : fact.key = key := by simpa using List.find?_some hfind
    rw [← hkey, blockedTotal, totalOf_of_mem h.nodup (List.mem_of_find?_eq_some hfind)]
    rfl

/-- The entries after one more fact. -/
theorem concat (h : Tallies counts facts) (fact : BlockFact) :
    Tallies ((counts.filter fun f => f.key ≠ fact.key) ++
        [{ fact with count := blockedTotal facts fact.key + fact.count }]) (facts ++ [fact]) where
  nodup := by
    rw [List.map_append, List.nodup_append]
    refine ⟨h.nodup.sublist (List.filter_sublist.map _), List.nodup_singleton _, ?_⟩
    rintro key hkey _ hlast rfl
    obtain ⟨f, hmem, rfl⟩ := List.mem_map.mp hkey
    exact of_decide_eq_true (List.mem_filter.mp hmem).2 (by simpa using hlast)
  keys key := by
    simp only [List.map_append, List.mem_append, ← h.keys]
    by_cases hkey : key = fact.key
    · simp [hkey]
    · have hkey' : key ≠ BlockFact.key { fact with count := blockedTotal facts fact.key + fact.count } :=
        hkey
      simp only [List.map_cons, List.map_nil, List.mem_singleton, hkey, hkey', or_false,
        List.mem_map, List.mem_filter]
      constructor
      · rintro ⟨f, ⟨hmem, -⟩, rfl⟩
        exact ⟨f, hmem, rfl⟩
      · rintro ⟨f, hmem, rfl⟩
        exact ⟨f, ⟨hmem, by simpa using hkey⟩, rfl⟩
  totals key := by
    rw [blockedTotal_concat_with, blockedTotal_concat]
    by_cases hkey : fact.key = key
    · subst hkey
      rw [blockedTotal, totalOf_filter_self, if_pos rfl, if_pos rfl, zero_add]
    · rw [blockedTotal, totalOf_filter_ne counts (Ne.symm hkey), if_neg hkey, if_neg hkey]
      exact congrArg (· + 0) (h.totals key)
  count := by
    have hrest : blockedTotal counts fact.key + blockedCount (counts.filter fun f =>
        f.key ≠ fact.key) = blockedCount counts := totalOf_add_rest counts fact.key
    rw [h.totals, h.count] at hrest
    rw [blockedCount_append, blockedCount_append, ← hrest]
    simp only [blockedCount, List.map_cons, List.map_nil, List.sum_cons, List.sum_nil]
    omega

end Tallies

theorem addCount_eq {counts facts : List BlockFact} (h : Tallies counts facts) (fact : BlockFact) :
    addCount counts fact = (do
      require (blockedTotal (facts ++ [fact]) fact.key ≤ MAX_IJSON_INT)
        (.engineError "coalesced EgressBlocked.count exceeds the I-JSON safe range")
      return (counts.filter fun f => f.key ≠ fact.key) ++
        [{ fact with count := blockedTotal facts fact.key + fact.count }]) := by
  simp only [addCount, h.find_count, blockedTotal_concat, if_pos]

/-- Every total is within the range of I-JSON integers. -/
def WithinRange (facts : List BlockFact) : Prop :=
  ∀ key, blockedTotal facts key ≤ MAX_IJSON_INT

theorem withinRange_perm {facts others : List BlockFact} (h : facts.Perm others) :
    WithinRange facts ↔ WithinRange others := by
  simp only [WithinRange, blockedTotal, totalOf_perm h]

/-- The loop of `_coalesce_harness_events`: it counts, or a total is out of range. -/
theorem foldlM_addCount {facts : List BlockFact} (hchecked : ∀ fact ∈ facts, fact.Checked) :
    (WithinRange facts ∧ ∃ counts, facts.foldlM addCount [] = .ok counts ∧ Tallies counts facts) ∨
      (¬ WithinRange facts ∧ facts.foldlM addCount [] = .error
        (.engineError "coalesced EgressBlocked.count exceeds the I-JSON safe range")) := by
  induction facts using List.reverseRecOn with
  | nil => exact .inl ⟨fun key => by simp [blockedTotal], [], rfl, List.nodup_nil, by simp, by simp, rfl⟩
  | append_singleton facts fact ih =>
    have hfacts : ∀ f ∈ facts, f.Checked := fun f hf => hchecked f (by simp [hf])
    have hfact := (hchecked fact (by simp)).count_pos
    rw [List.foldlM_append]
    rcases ih hfacts with ⟨hrange, counts, hloop, htallies⟩ | ⟨hrange, hloop⟩
    · rw [hloop, ok_bind, List.foldlM_cons, addCount_eq htallies]
      by_cases hlast : blockedTotal (facts ++ [fact]) fact.key ≤ MAX_IJSON_INT
      · refine .inl ⟨fun key => ?_, _, ?_, htallies.concat fact⟩
        · by_cases hkey : fact.key = key
          · exact hkey ▸ hlast
          · rw [blockedTotal_concat, if_neg hkey, add_zero]
            exact hrange key
        · rw [require_pos hlast]
          rfl
      · refine .inr ⟨fun h => hlast (h _), ?_⟩
        rw [require_neg hlast]
        rfl
    · refine .inr ⟨fun h => hrange fun key => ?_, by rw [hloop]; rfl⟩
      have := h key
      rw [blockedTotal_concat] at this
      split_ifs at this <;> omega

/-! ## Coalescing -/

/-- The facts are in order, and one per destination. -/
structure InOrder (facts : List BlockFact) : Prop where
  pairwise : facts.Pairwise FactLe
  nodup : (facts.map BlockFact.key).Nodup

/-- Two orderings of the same facts are the same. -/
theorem InOrder.eq_of_perm {facts others : List BlockFact} (h : InOrder facts) (h' : InOrder others)
    (hports : ∀ fact ∈ facts, fact.key.PortInRange) (hperm : facts.Perm others) :
    facts = others := by
  refine List.Perm.eq_of_pairwise (fun a b ha hb hab hba => ?_) h.pairwise h'.pairwise hperm
  have hb' : b ∈ facts := hperm.mem_iff.mpr hb
  have hkey := BlockKey.sortKey_injective (hports a ha) (hports b hb')
    (le_antisymm (BlockKey.le_iff.mp hab) (BlockKey.le_iff.mp hba))
  exact List.inj_on_of_nodup_map h.nodup ha hb' hkey

/-- What `_coalesce_harness_events` returns: the totals of its input, in order. -/
theorem coalesceHarnessEvents_eq {facts : List BlockFact} (hchecked : ∀ fact ∈ facts, fact.Checked) :
    (WithinRange facts ∧ ∃ coalesced, coalesceHarnessEvents facts = .ok coalesced ∧
        Tallies coalesced facts ∧ InOrder coalesced) ∨
      (¬ WithinRange facts ∧ coalesceHarnessEvents facts = .error
        (.engineError "coalesced EgressBlocked.count exceeds the I-JSON safe range")) := by
  rcases foldlM_addCount hchecked with ⟨hrange, counts, hloop, htallies⟩ | ⟨hrange, hloop⟩
  · have hperm : (counts.insertionSort FactLe).Perm counts := List.perm_insertionSort _ _
    have hnodup : ((counts.insertionSort FactLe).map BlockFact.key).Nodup :=
      (hperm.map _).nodup_iff.mpr htallies.nodup
    refine .inl ⟨hrange, counts.insertionSort FactLe, ?_, ⟨hnodup, fun key => ?_, fun key => ?_, ?_⟩,
      List.pairwise_insertionSort _ _, hnodup⟩
    · rw [coalesceHarnessEvents, hloop]
      rfl
    · rw [(hperm.map _).mem_iff, htallies.keys]
    · rw [blockedTotal, totalOf_perm hperm, ← htallies.totals]
    · rw [blockedCount_perm hperm, htallies.count]
  · exact .inr ⟨hrange, by rw [coalesceHarnessEvents, hloop]; rfl⟩

/-- The facts that come out are the checked totals of those that go in. -/
theorem Tallies.checked {coalesced facts : List BlockFact} (h : Tallies coalesced facts)
    (hchecked : ∀ fact ∈ facts, fact.Checked) (hrange : WithinRange facts) :
    ∀ fact ∈ coalesced, fact.Checked := by
  intro fact hmem
  obtain ⟨hkey, hcount⟩ := (h.mem_iff fact).mp hmem
  obtain ⟨other, hother, hsame⟩ := List.mem_map.mp hkey
  refine ⟨?_, hcount ▸ hrange _, hsame ▸ (hchecked other hother).port_range⟩
  have hle : other.count ≤ blockedTotal facts fact.key := by
    refine List.single_le_sum (fun n hn => ?_) _
      (List.mem_map_of_mem (List.mem_filter.mpr ⟨hother, by simpa using hsame⟩))
    obtain ⟨f, hf, rfl⟩ := List.mem_map.mp hn
    have := (hchecked f (List.mem_filter.mp hf).1).count_pos
    omega
  have := (hchecked other hother).count_pos
  omega

/-- Totals are preserved, per destination and altogether. -/
theorem coalesceHarnessEvents_totals {facts coalesced : List BlockFact}
    (hchecked : ∀ fact ∈ facts, fact.Checked) (h : coalesceHarnessEvents facts = .ok coalesced) :
    (∀ key, blockedTotal coalesced key = blockedTotal facts key) ∧
      blockedCount coalesced = blockedCount facts := by
  rcases coalesceHarnessEvents_eq hchecked with ⟨-, coalesced', hok, htallies, -⟩ | ⟨-, herror⟩
  · obtain rfl : coalesced' = coalesced := Except.ok.inj (hok.symm.trans h)
    exact ⟨htallies.totals, htallies.count⟩
  · rw [herror] at h
    cases h

/-- The order of the facts does not matter. -/
theorem coalesceHarnessEvents_perm {facts others : List BlockFact}
    (hchecked : ∀ fact ∈ facts, fact.Checked) (hperm : facts.Perm others) :
    coalesceHarnessEvents facts = coalesceHarnessEvents others := by
  have hothers : ∀ fact ∈ others, fact.Checked := fun fact hf => hchecked fact (hperm.mem_iff.mpr hf)
  rcases coalesceHarnessEvents_eq hchecked with ⟨hrange, c, hc, htallies, hordered⟩ | ⟨hrange, hc⟩ <;>
    rcases coalesceHarnessEvents_eq hothers with
      ⟨hrange', c', hc', htallies', hordered'⟩ | ⟨hrange', hc'⟩
  · have hports : ∀ fact ∈ c, fact.key.PortInRange := fun fact hf =>
      (htallies.checked hchecked hrange fact hf).port_range
    rw [hc, hc', hordered.eq_of_perm hordered' hports (htallies.perm_of_perm htallies' hperm)]
  · exact absurd ((withinRange_perm hperm).mp hrange) hrange'
  · exact absurd ((withinRange_perm hperm).mpr hrange') hrange
  · rw [hc, hc']

/-- Coalesced facts are coalesced. -/
theorem coalesceHarnessEvents_idem {facts coalesced : List BlockFact}
    (hchecked : ∀ fact ∈ facts, fact.Checked) (h : coalesceHarnessEvents facts = .ok coalesced) :
    coalesceHarnessEvents coalesced = .ok coalesced := by
  rcases coalesceHarnessEvents_eq hchecked with ⟨hrange, c, hc, htallies, hordered⟩ | ⟨-, herror⟩
  · obtain rfl : c = coalesced := Except.ok.inj (hc.symm.trans h)
    have hcoalesced := htallies.checked hchecked hrange
    have hself : Tallies c c := ⟨htallies.nodup, fun _ => .rfl, fun _ => rfl, rfl⟩
    have hrange' : WithinRange c := fun key => by
      rw [htallies.totals]
      exact hrange key
    rcases coalesceHarnessEvents_eq hcoalesced with ⟨-, c', hc', htallies', hordered'⟩ | ⟨hnot, -⟩
    · rw [hc', hordered.eq_of_perm hordered' (fun fact hf => (hcoalesced fact hf).port_range)
        (hself.perm_of_perm htallies' (.refl _))]
    · exact absurd hrange' hnot
  · rw [herror] at h
    cases h

/-! ## Drained facts are checked -/

theorem validatePort_eq_ok {value : Option Json} {port : Option ℤ}
    (h : validatePort value = .ok port) : ∀ p ∈ port, 0 ≤ p := by
  rintro p rfl
  unfold validatePort at h
  split at h
  · cases h
  · cases h
  · simp only [bind_ok_iff, require_eq_ok, pure_eq_ok, Except.ok.injEq, Option.some.injEq] at h
    obtain ⟨-, ⟨hp, -⟩, rfl⟩ := h
    exact hp
  · cases h

theorem validateCount_eq_ok {value : Option Json} {count : ℤ} (h : validateCount value = .ok count) :
    value = some (.int count) ∧ 1 ≤ count ∧ count ≤ MAX_IJSON_INT := by
  unfold validateCount at h
  split at h
  · simp only [bind_ok_iff, require_eq_ok, pure_eq_ok, Except.ok.injEq] at h
    obtain ⟨-, hcount, rfl⟩ := h
    exact ⟨rfl, hcount⟩
  · cases h

theorem validateHarnessEvent_eq_ok {event : HarnessEvent} {fact : BlockFact}
    (h : validateHarnessEvent event = .ok fact) :
    fact.Checked ∧ Json.lookup (txt "count") event.payload = some (.int fact.count) := by
  simp only [validateHarnessEvent, bind_ok_iff, require_eq_ok, pure_eq_ok] at h
  obtain ⟨-, -, -, -, h⟩ := h
  split at h
  case h_2 => cases h
  simp only [bind_ok_iff, Except.ok.injEq] at h
  obtain ⟨destination, -, port, hport, protocol, -, count, hcount, rfl⟩ := h
  obtain ⟨hlookup, hlow, hhigh⟩ := validateCount_eq_ok hcount
  exact ⟨⟨hlow, hhigh, validatePort_eq_ok hport⟩, hlookup⟩

theorem drainHarnessEvents_checked {σ : Type} {agent : Agent σ} {s s' : σ} {facts : List BlockFact}
    (h : drainHarnessEvents agent s = .ok (facts, s')) : ∀ fact ∈ facts, fact.Checked := by
  unfold drainHarnessEvents at h
  split at h
  · obtain ⟨rfl, -⟩ := Prod.mk.inj (Except.ok.inj h)
    simp
  · split at h
    · cases h
    · simp only [bind_ok_iff, pure_eq_ok, Except.ok.injEq, Prod.mk.injEq] at h
      obtain ⟨validated, hvalidated, rfl, -⟩ := h
      intro fact hmem
      obtain ⟨event, -, hevent⟩ := mapM_mem hvalidated hmem
      exact (validateHarnessEvent_eq_ok hevent).1

end WagmiBench.Core
