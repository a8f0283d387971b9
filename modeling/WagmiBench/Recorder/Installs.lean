import WagmiBench.Recorder.Committed

/-!
# What the writer does to the disk

Each method by the steps it performs: a file that is appended to grows by a front of what is written
to it, and a new file is written under its temporary name and renamed when all of it is there.
-/

namespace WagmiBench.Recorder

open WagmiBench.Lib WagmiBench.Core WagmiBench.Spec

/-- Only steps were performed, and calls were counted. -/
def Performs (s s' : BundleWriter) (steps : List (DiskStep Path)) : Prop :=
  s' = { s with steps := s.steps ++ steps, calls := s'.calls }

theorem Performs.refl (s : BundleWriter) : Performs s s [] := by
  simp [Performs]

theorem Performs.trans {s s' s'' : BundleWriter} {steps more : List (DiskStep Path)}
    (h : Performs s s' steps) (h' : Performs s' s'' more) : Performs s s'' (steps ++ more) := by
  unfold Performs at h h' ⊢
  rw [h', h]
  simp

theorem Performs.steps {s s' : BundleWriter} {steps : List (DiskStep Path)}
    (h : Performs s s' steps) : s'.steps = s.steps ++ steps := by
  rw [show s' = _ from h]

/-- The chains are not touched. -/
theorem Performs.chains {s s' : BundleWriter} {steps : List (DiskStep Path)}
    (h : Performs s s' steps) :
    s'.eventChain = s.eventChain ∧ s'.decisionChain = s.decisionChain := by
  rw [show s' = _ from h]
  exact ⟨rfl, rfl⟩

/-- A failure of the system. -/
def Fails {α : Type} (o : Except Fault α) : Prop := o = .error .osError

namespace WriterSetting

variable (S : WriterSetting)

theorem disk_performs {s s' : BundleWriter} {steps : List (DiskStep Path)}
    (h : Performs s s' steps) : S.disk s' = (S.disk s).after steps := by
  unfold disk
  rw [h]
  simp

/-! ## System calls -/

theorem call_ends (s : BundleWriter) :
    Ends S.call s fun o s' => Performs s s' [] ∧ (o = .ok () ∨ Fails o) := by
  refine Ends.get_bind (Ends.modify_bind ?_)
  split
  · exact Ends.throw ⟨by simp [Performs], .inr rfl⟩
  · exact Ends.pure ⟨by simp [Performs], .inl rfl⟩

theorem perform_ends (step : DiskStep Path) (s : BundleWriter) :
    Ends (perform step) s fun o s' => o = .ok () ∧ Performs s s' [step] :=
  Ends.modify ⟨rfl, by simp [Performs]⟩

theorem fileExists_ends (path : Path) (s : BundleWriter) :
    Ends (S.fileExists path) s fun o s' => s' = s ∧ o = .ok (decide (path ∈ (S.disk s).paths)) :=
  Ends.get_bind (Ends.pure ⟨rfl, rfl⟩)

theorem check_ends {c : Prop} [Decidable c] (message : Text) (s : BundleWriter) :
    Ends (check c message) s fun o s' => s' = s ∧
      (c ∧ o = .ok () ∨ ¬c ∧ o = .error (.recorderError message)) := by
  unfold check
  split
  · rename_i h
    exact Ends.pure ⟨rfl, .inl ⟨h, rfl⟩⟩
  · rename_i h
    exact Ends.throw ⟨rfl, .inr ⟨h, rfl⟩⟩

/-- Pieces were written of data; all of it, if nothing failed. -/
structure Written (path : Path) (data : Bytes) (o : Except Fault Unit)
    (steps : List (DiskStep Path)) (pieces : List Bytes) : Prop where
  steps : steps = pieces.map (.append path)
  front : pieces.flatten <+: data
  ends : o = .ok () ∧ pieces.flatten = data ∨ Fails o

theorem writeRounds_ends (path : Path) (rounds : ℕ) {data : Bytes} (h : data.length ≤ rounds)
    (s : BundleWriter) :
    Ends (S.writeRounds path rounds data) s fun o s' => ∃ steps pieces,
      Performs s s' steps ∧ Written path data o steps pieces := by
  induction rounds generalizing data s with
  | zero =>
    obtain rfl := List.length_eq_zero_iff.mp (Nat.le_zero.mp h)
    exact Ends.pure ⟨[], [], Performs.refl s, rfl, by simp, .inl ⟨rfl, rfl⟩⟩
  | succ rounds ih =>
    unfold writeRounds
    split
    · rename_i hdata
      subst hdata
      exact Ends.pure ⟨[], [], Performs.refl s, rfl, by simp, .inl ⟨rfl, rfl⟩⟩
    · rename_i hdata
      refine Ends.get_bind (Ends.bind (S.call_ends s) ?_ ?_)
      · rintro _ s₁ ⟨h₁, -⟩
        split
        · exact Ends.throw ⟨[], [], h₁, rfl, by simp, .inr rfl⟩
        · rename_i htaken
          refine Ends.bind (perform_ends _ s₁) ?_ (by simp)
          rintro _ s₂ ⟨-, h₂⟩
          have hpos := List.length_pos_iff.mpr hdata
          refine (ih (by rw [List.length_drop]; omega) s₂).mono ?_
          rintro o s' ⟨steps, pieces, h', hwritten⟩
          refine ⟨_, data.take (S.taken s.calls) :: pieces, (h₁.trans h₂).trans h', ?_, ?_, ?_⟩
          · rw [hwritten.steps]
            rfl
          · conv_rhs => rw [← List.take_append_drop (S.taken s.calls) data]
            exact (List.prefix_append_right_inj _).mpr hwritten.front
          · refine hwritten.ends.imp_left fun ⟨ho, hflatten⟩ => ⟨ho, ?_⟩
            rw [List.flatten_cons, hflatten, List.take_append_drop]
      · rintro e s₁ ⟨h₁, he⟩
        exact ⟨[], [], h₁, rfl, by simp, .inr (he.resolve_left (by simp))⟩

theorem writeAll_ends (path : Path) (data : Bytes) (s : BundleWriter) :
    Ends (S.writeAll path data) s fun o s' => ∃ steps pieces,
      Performs s s' steps ∧ Written path data o steps pieces :=
  S.writeRounds_ends path data.length le_rfl s

/-! ## Appending -/

/-- An append to a file that is there. -/
theorem appendFsync_ends {path : Path} {data : Bytes} {s : BundleWriter}
    (h : path ∈ (S.disk s).paths) :
    Ends (S.appendFsync path data) s fun o s' => ∃ pieces : List Bytes,
      Performs s s' (pieces.map (.append path)) ∧ pieces.flatten <+: data ∧
        (o = .ok () ∧ pieces.flatten = data ∨ Fails o) := by
  refine Ends.bind (S.call_ends s) ?_ ?_
  · rintro _ s₁ ⟨h₁, -⟩
    have hexists : path ∈ (S.disk s₁).paths := by
      rw [S.disk_performs h₁]
      exact h
    refine Ends.bind (S.fileExists_ends path s₁) ?_ (by simp)
    rintro found _ ⟨rfl, hfound⟩
    obtain rfl := Except.ok.inj hfound
    rw [if_neg (by simpa using hexists)]
    refine Ends.bind (S.writeAll_ends path data _) ?_ ?_
    · rintro _ s₂ ⟨steps, pieces, h₂, rfl, hfront, hends⟩
      obtain ⟨-, hflatten⟩ := hends.resolve_right (by simp [Fails])
      refine (S.call_ends s₂).mono ?_
      rintro o s' ⟨h₃, ho⟩
      have hall := (h₁.trans h₂).trans h₃
      rw [List.nil_append, List.append_nil] at hall
      exact ⟨pieces, hall, hfront, ho.imp_left fun ho => ⟨ho, hflatten⟩⟩
    · rintro e s₂ ⟨steps, pieces, h₂, rfl, hfront, hends⟩
      exact ⟨pieces, by simpa using h₁.trans h₂, hfront, .inr (hends.resolve_left (by simp))⟩
  · rintro e s₁ ⟨h₁, he⟩
    exact ⟨[], by simpa using h₁, by simp, .inr (he.resolve_left (by simp))⟩

/-! ## New files -/

/-- What the installation of a new file does. -/
inductive Installing (disk : Disk Path) (path : Path) (data : Bytes) :
    Except Fault Unit → List (DiskStep Path) → Prop
  | refused (e : Fault) : Installing disk path data (.error e) []
  | cut {pieces : List Bytes} : path ∉ disk.paths → temporary path ∉ disk.paths →
      pieces.flatten <+: data →
      Installing disk path data (.error .osError)
        (.create (temporary path) :: pieces.map (.append (temporary path)))
  | done {o : Except Fault Unit} {pieces : List Bytes} : path ∉ disk.paths →
      temporary path ∉ disk.paths → pieces.flatten = data → (o = .ok () ∨ Fails o) →
      Installing disk path data o (.create (temporary path) ::
        (pieces.map (.append (temporary path)) ++ [.rename (temporary path) path]))

theorem temporary_ne (path : Path) : temporary path ≠ path := by
  intro h
  have := congrArg (fun path => path.name.length) h
  simp [temporary] at this
  omega

section Temporary

variable {S} {path : Path} {disk : Disk Path}

theorem after_create (h : temporary path ∉ disk.paths) :
    (DiskStep.create (temporary path)).apply disk = disk ++ [(temporary path, [])] := by
  rw [DiskStep.apply, if_neg h]

/-- While the temporary file is written it is the last one. -/
theorem after_temporary (h : temporary path ∉ disk.paths) (pieces : List Bytes) :
    disk.after (.create (temporary path) :: pieces.map (.append (temporary path))) =
      disk ++ [(temporary path, pieces.flatten)] := by
  have : disk.after (.create (temporary path) :: pieces.map (.append (temporary path))) =
      ((DiskStep.create (temporary path)).apply disk).after
        (pieces.map (.append (temporary path))) := rfl
  rw [this, after_create h, Disk.after_pieces, Disk.append_concat h, List.nil_append]

/-- The renamed file is the last one. -/
theorem after_installed (hpath : path ∉ disk.paths) (h : temporary path ∉ disk.paths)
    (pieces : List Bytes) :
    disk.after (.create (temporary path) :: (pieces.map (.append (temporary path)) ++
      [.rename (temporary path) path])) = disk ++ [(path, pieces.flatten)] := by
  rw [← List.cons_append, Disk.after_append, after_temporary h]
  exact Disk.rename_concat h hpath (temporary_ne path)

variable {data : Bytes} {o : Except Fault Unit} {steps : List (DiskStep Path)}

/-- While a file is installed its path is free, or holds all of it. -/
theorem Installing.throughout {good : Disk Path → Prop} (h : Installing disk path data o steps)
    (hdisk : good disk) (htemporary : ∀ front, front <+: data →
      good (disk ++ [(temporary path, front)])) (hinstalled : good (disk ++ [(path, data)])) :
    Disk.Throughout good disk steps := by
  have writing : temporary path ∉ disk.paths → ∀ pieces : List Bytes, pieces.flatten <+: data →
      Disk.Throughout good disk
        (.create (temporary path) :: pieces.map (.append (temporary path))) := by
    intro habsent pieces hpieces
    refine Disk.Throughout.cons hdisk (after_create habsent ▸ Disk.throughout_pieces ?_)
    intro front hfront
    rw [Disk.append_concat habsent, List.nil_append]
    exact htemporary front (hfront.trans hpieces)
  cases h with
  | refused e => exact Disk.throughout_nil.mpr hdisk
  | cut _ habsent hpieces => exact writing habsent _ hpieces
  | @done _ pieces hpath habsent hall ho =>
    refine Disk.Throughout.append (writing habsent pieces (hall ▸ List.prefix_rfl)) ?_
    refine Disk.Throughout.cons ?_ (Disk.throughout_nil.mpr ?_)
    · rw [after_temporary habsent]
      exact htemporary _ (hall ▸ List.prefix_rfl)
    · rw [after_temporary habsent, Disk.rename_concat habsent hpath (temporary_ne path), hall]
      exact hinstalled

theorem Installing.after_ok (h : Installing disk path data (.ok ()) steps) :
    disk.after steps = disk ++ [(path, data)] := by
  cases h with
  | done hpath habsent hall _ => rw [after_installed hpath habsent, hall]

/-- A refusal leaves the disk as it was. -/
theorem Installing.refused_steps {message : Text}
    (h : Installing disk path data (.error (.recorderError message)) steps) : steps = [] := by
  cases h with
  | refused => rfl
  | done _ _ _ ho => simp [Fails] at ho

end Temporary

theorem atomicNewFile_ends (path : Path) (data : Bytes) (s : BundleWriter) :
    Ends (S.atomicNewFile path data) s fun o s' => ∃ steps,
      Performs s s' steps ∧ Installing (S.disk s) path data o steps := by
  have nothing : ∀ {e : Fault} {s' : BundleWriter}, Performs s s' [] →
      ∃ steps, Performs s s' steps ∧ Installing (S.disk s) path data (.error e) steps :=
    fun h => ⟨[], h, .refused _⟩
  refine Ends.bind (S.fileExists_ends path s) ?_ (by simp)
  rintro found _ ⟨rfl, hfound⟩
  obtain rfl := Except.ok.inj hfound
  refine Ends.bind (check_ends _ _) ?_ fun e _ h => nothing (h.1 ▸ Performs.refl _)
  rintro _ s ⟨rfl, hcheck⟩
  have hpath : path ∉ (S.disk s).paths := by
    simpa using (hcheck.resolve_right (by simp)).1
  refine Ends.bind (S.call_ends s) ?_ fun e _ h => nothing h.1
  rintro _ s₁ ⟨h₁, -⟩
  refine Ends.bind (S.fileExists_ends _ s₁) ?_ (by simp)
  rintro found _ ⟨rfl, hfound⟩
  obtain rfl := Except.ok.inj hfound
  refine Ends.bind (check_ends _ _) ?_ fun e _ h => nothing (h.1 ▸ h₁)
  rintro _ s₁ ⟨rfl, hcheck⟩
  have htemporary : temporary path ∉ (S.disk s).paths := by
    have := (hcheck.resolve_right (by simp)).1
    rw [S.disk_performs h₁] at this
    exact decide_eq_false_iff_not.mp this
  refine Ends.bind (perform_ends _ _) ?_ (by simp)
  rintro _ s₂ ⟨-, h₂⟩
  have h₂ := h₁.trans h₂
  refine Ends.bind (S.writeAll_ends _ data s₂) ?_ ?_
  · rintro _ s₃ ⟨steps, pieces, h₃, rfl, hfront, hends⟩
    obtain ⟨-, hflatten⟩ := hends.resolve_right (by simp [Fails])
    have h₃ := h₂.trans h₃
    rw [List.nil_append] at h₃
    refine Ends.bind (S.call_ends s₃) ?_ ?_
    · rintro _ s₄ ⟨h₄, -⟩
      have h₄ := h₃.trans h₄
      rw [List.append_nil] at h₄
      refine Ends.bind (S.fileExists_ends path s₄) ?_ (by simp)
      rintro found s₄ ⟨rfl, hfound⟩
      obtain rfl := Except.ok.inj hfound
      have habsent : path ∉ (S.disk s₄).paths := by
        rw [S.disk_performs h₄, List.singleton_append, after_temporary htemporary]
        simpa [Disk.paths, (temporary_ne path).symm] using hpath
      refine Ends.bind (check_ends _ _) ?_ ?_
      · rintro _ s₅ ⟨rfl, -⟩
        refine Ends.bind (S.call_ends _) ?_ ?_
        · rintro _ s₆ ⟨h₆, -⟩
          refine Ends.bind (perform_ends _ _) ?_ (by simp)
          rintro _ s₇ ⟨-, h₇⟩
          refine (S.call_ends s₇).mono ?_
          rintro o s' ⟨h₈, ho⟩
          have hall := ((h₄.trans h₆).trans h₇).trans h₈
          simp only [List.append_nil, List.cons_append] at hall
          exact ⟨_, hall, .done hpath htemporary hflatten ho⟩
        · rintro e s₆ ⟨h₆, he⟩
          obtain rfl : e = .osError := Except.error.inj (he.resolve_left (by simp))
          exact ⟨_, by simpa using h₄.trans h₆, .cut hpath htemporary hfront⟩
      · rintro e _ ⟨rfl, he⟩
        exact absurd (by simpa using habsent) (he.resolve_left (by simp)).1
    · rintro e s₄ ⟨h₄, he⟩
      obtain rfl : e = .osError := Except.error.inj (he.resolve_left (by simp))
      exact ⟨_, by simpa using h₃.trans h₄, .cut hpath htemporary hfront⟩
  · rintro e s₃ ⟨steps, pieces, h₃, rfl, hfront, hends⟩
    obtain rfl : e = .osError := Except.error.inj (hends.resolve_left (by simp))
    exact ⟨_, by simpa using h₂.trans h₃, .cut hpath htemporary hfront⟩

end WriterSetting

end WagmiBench.Recorder
