import WagmiBench.Lib.JsonCanonical

/-!
# Plain documents

A document whose objects hold each key once and whose containers nest only so deep. Any faithful
reader reads its canonical bytes back as the same document with sorted members, and the dictionary a
plain `json.loads` builds is faithful.
-/

namespace WagmiBench.Lib

namespace Json

/-- Every object holds each key once, and containers nest at most `n` deep. -/
structure Plain (n : ℕ) (v : Json) : Prop where
  distinct : v.Distinct
  depth : v.depth ≤ n

theorem Plain.mono {n m : ℕ} {v : Json} (h : Plain n v) (hnm : n ≤ m) : Plain m v :=
  ⟨h.distinct, h.depth.trans hnm⟩

@[simp] theorem plain_null {n : ℕ} : Plain n .null := ⟨by simp [Distinct], by simp [Json.depth]⟩

@[simp] theorem plain_bool {n : ℕ} {b : Bool} : Plain n (.bool b) :=
  ⟨by simp [Distinct], by simp [Json.depth]⟩

@[simp] theorem plain_int {n : ℕ} {i : ℤ} : Plain n (.int i) :=
  ⟨by simp [Distinct], by simp [Json.depth]⟩

@[simp] theorem plain_str {n : ℕ} {t : Text} : Plain n (.str t) :=
  ⟨by simp [Distinct], by simp [Json.depth]⟩

theorem distinctItems_iff {items : List Json} :
    DistinctItems items ↔ ∀ v ∈ items, Distinct v := by
  induction items with
  | nil => simp [DistinctItems]
  | cons v items ih => simp [DistinctItems, ih]

theorem depthItems_le_iff {items : List Json} {n : ℕ} :
    depthItems items ≤ n ↔ ∀ v ∈ items, v.depth ≤ n := by
  induction items with
  | nil => simp [depthItems]
  | cons v items ih => simp [depthItems, ih]

theorem plain_arr {n : ℕ} {items : List Json} (h : ∀ v ∈ items, Plain n v) :
    Plain (n + 1) (.arr items) := by
  refine ⟨distinctItems_iff.mpr fun v hv => (h v hv).distinct, ?_⟩
  rw [Json.depth, Nat.add_le_add_iff_right, depthItems_le_iff]
  exact fun v hv => (h v hv).depth

theorem plain_obj {n : ℕ} {members : List (Text × Json)} (hkeys : NodupKeys members)
    (h : ∀ m ∈ members, Plain n m.2) : Plain (n + 1) (.obj members) := by
  refine ⟨⟨hkeys, distinctMembers_iff.mpr fun m hm => (h m hm).distinct⟩, ?_⟩
  rw [Json.depth, Nat.add_le_add_iff_right, depthMembers_le_iff]
  exact fun m hm => (h m hm).depth

/-- A list of pairs with distinct keys is the dictionary it builds. -/
theorem dictOfPairs_of_nodup {pairs : List (Text × Json)} (h : (pairs.map Prod.fst).Nodup) :
    dictOfPairs pairs = pairs := by
  -- the dictionary so far and the pairs to come share no key
  have go : ∀ (pairs d : List (Text × Json)), ((d ++ pairs).map Prod.fst).Nodup →
      pairs.foldl (fun d p => if d.any fun m => m.1 = p.1 then
        d.map fun m => if m.1 = p.1 then p else m else d ++ [p]) d = d ++ pairs := by
    intro pairs
    induction pairs with
    | nil => simp
    | cons p pairs ih =>
      intro d hd
      have fresh : (d.any fun m => m.1 = p.1) = false := by
        rw [List.map_append, List.nodup_append] at hd
        simp only [List.any_eq_false, decide_eq_true_eq]
        intro m hm heq
        exact hd.2.2 _ (List.mem_map_of_mem hm) p.1 (by simp) heq
      rw [List.foldl_cons, fresh, if_neg (by simp), ih _ (by simpa using hd)]
      simp
  exact go pairs [] (by simpa using h)

/-- The canonical bytes of a plain document are read back as the document with sorted members. -/
theorem read_canonical {ε : Type} {L : Limits} {H : Hooks ε} (hH : H.Faithful) {v : Json} {n : ℕ}
    {b : Bytes} (h : v.canonical = .ok b) (hv : Plain n v) (hn : n ≤ L.maxDepth) :
    ∃ t, utf8Decode false b = some t ∧ loads L H t = .ok v.normalize := by
  have he : v.Encodable := canonical_isOk.mp ⟨b, h⟩
  obtain ⟨-, hb⟩ := canonical_eq_ok.mp h
  exact ⟨_, utf8Decode_encode hb, loads_canonical hH he hv.distinct (hv.depth.trans hn)⟩

end Json

end WagmiBench.Lib
