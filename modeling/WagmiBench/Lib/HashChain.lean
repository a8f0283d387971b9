import WagmiBench.Lib.Outcome

/-!
# Linear chains of digests

A chain folds records into digests: each link is computed from the record's place, the record and
the link before it, the first one from a genesis digest. When the link function separates the inputs
it is given, the last link of a chain and its length determine the genesis and every record.
-/

namespace WagmiBench.Lib.HashChain

variable {ε : Type} {R D : Type}

/-- The links of a chain whose first record has place `i` and follows the digest `prev`. -/
def links (link : ℕ → R → D → Except ε D) : ℕ → D → List R → Except ε (List D)
  | _, _, [] => .ok []
  | i, prev, r :: rs => do
    let d ← link i r prev
    let ds ← links link (i + 1) d rs
    return d :: ds

/-- The last link, or the genesis when there is none. -/
def head (genesis : D) (ds : List D) : D := ds.getLastD genesis

@[simp] theorem head_nil (genesis : D) : head genesis [] = genesis := rfl

@[simp] theorem head_cons (genesis d : D) (ds : List D) : head genesis (d :: ds) = head d ds := by
  cases ds <;> simp [head, List.getLastD]

theorem head_concat (genesis : D) (ds : List D) (d : D) : head genesis (ds ++ [d]) = d := by
  simp [head]

variable {link link' : ℕ → R → D → Except ε D}

theorem links_cons_eq_ok {i : ℕ} {prev : D} {r : R} {rs : List R} {ds : List D} :
    links link i prev (r :: rs) = .ok ds ↔
      ∃ d ds', link i r prev = .ok d ∧ links link (i + 1) d rs = .ok ds' ∧ ds = d :: ds' := by
  simp only [links, bind_ok_iff, pure_eq_ok, Except.ok.injEq]
  constructor
  · rintro ⟨d, hd, ds', hds, rfl⟩
    exact ⟨d, ds', hd, hds, rfl⟩
  · rintro ⟨d, ds', hd, hds, rfl⟩
    exact ⟨d, hd, ds', hds, rfl⟩

theorem links_length {i : ℕ} {prev : D} {rs : List R} {ds : List D}
    (h : links link i prev rs = .ok ds) : ds.length = rs.length := by
  induction rs generalizing i prev ds with
  | nil => rw [← Except.ok.inj h]; rfl
  | cons r rs ih =>
    obtain ⟨d, ds', -, hds, rfl⟩ := links_cons_eq_ok.mp h
    rw [List.length_cons, List.length_cons, ih hds]

/-- The inputs of the links: each record's place, the record and the digest before it. -/
def inputs : ℕ → D → List R → List D → List (ℕ × R × D)
  | i, prev, r :: rs, d :: ds => (i, r, prev) :: inputs (i + 1) d rs ds
  | _, _, _, _ => []

/-- `link` and `link'` tell apart the inputs of two chains: a digest they share comes from the same
record after the same digest. -/
def Separates (link link' : ℕ → R → D → Except ε D) (used used' : List (ℕ × R × D)) : Prop :=
  ∀ i r p r' p' d, (i, r, p) ∈ used → (i, r', p') ∈ used' → link i r p = .ok d →
    link' i r' p' = .ok d → r = r' ∧ p = p'

/-- **A chain is determined by its head and its length.** -/
theorem links_injective {i : ℕ} {prev prev' : D} {rs rs' : List R} {ds ds' : List D}
    (h : links link i prev rs = .ok ds) (h' : links link' i prev' rs' = .ok ds')
    (hlength : rs.length = rs'.length) (hhead : head prev ds = head prev' ds')
    (separates : Separates link link' (inputs i prev rs ds) (inputs i prev' rs' ds')) :
    prev = prev' ∧ rs = rs' ∧ ds = ds' := by
  induction rs generalizing i prev prev' rs' ds ds' with
  | nil =>
    obtain rfl := List.length_eq_zero_iff.mp hlength.symm
    obtain rfl := Except.ok.inj h
    obtain rfl := Except.ok.inj h'
    exact ⟨hhead, rfl, rfl⟩
  | cons r rs ih =>
    cases rs' with
    | nil => simp at hlength
    | cons r' rs' =>
      obtain ⟨d, es, hd, hes, rfl⟩ := links_cons_eq_ok.mp h
      obtain ⟨d', es', hd', hes', rfl⟩ := links_cons_eq_ok.mp h'
      rw [head_cons, head_cons] at hhead
      -- the rest of the chain first: it gives back the link the first records were folded into
      obtain ⟨rfl, rfl, rfl⟩ := ih hes hes' (by simpa using hlength) hhead
        fun j a p a' p' e ha ha' => separates j a p a' p' e (by simp [inputs, ha]) (by simp [inputs, ha'])
      obtain ⟨rfl, rfl⟩ := separates i r prev r' prev' d (by simp [inputs]) (by simp [inputs]) hd hd'
      exact ⟨rfl, rfl, rfl⟩

/-- Every link was computed from an input of the chain. -/
theorem mem_inputs_of_links {i : ℕ} {prev : D} {rs : List R} {ds : List D}
    (h : links link i prev rs = .ok ds) {j : ℕ} {r : R} {p : D}
    (hmem : (j, r, p) ∈ inputs i prev rs ds) : r ∈ rs ∧ ∃ d, link j r p = .ok d := by
  induction rs generalizing i prev ds with
  | nil => simp [inputs] at hmem
  | cons r₀ rs ih =>
    obtain ⟨d, es, hd, hes, rfl⟩ := links_cons_eq_ok.mp h
    simp only [inputs, List.mem_cons, Prod.mk.injEq] at hmem
    rcases hmem with ⟨rfl, rfl, rfl⟩ | hmem
    · exact ⟨List.mem_cons_self, d, hd⟩
    · obtain ⟨hr, hlink⟩ := ih hes hmem
      exact ⟨List.mem_cons_of_mem _ hr, hlink⟩

end WagmiBench.Lib.HashChain
