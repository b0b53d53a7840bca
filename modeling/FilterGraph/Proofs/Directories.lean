import FilterGraph.Conversion.Run

/-!
# The directories of outputs

Creating directories only adds to what is there, so what one output has found or made is still there
when all outputs have theirs.

* `Files.Extends`: a file system with more entries; a path that leads somewhere keeps leading there;
* `makeDirectories_extends`, `isDirectory_of_makeDirectories`: what creating a directory does;
* `Files.Provides`, `Files.Prepares`: a directory is found or created, for one output and for one
  after the other; **`Prepares.directories`**: in the end each has it;
* `Files.ensure`, `Files.ensureAll`: the same as functions, which also tell the directories that are
  new and the first error; `prepares_iff`, `ensureAll_error_iff`: how they end.
-/

namespace FilterGraph

namespace Files

/-! ## 1. More entries -/

/-- The later files have what the earlier have, in the same working directory. -/
structure Extends (fs fs' : Files) : Prop where
  working : fs'.working = fs.working
  entry : ∀ l e, fs.entry? l = some e → fs'.entry? l = some e

variable {fs fs' fs'' : Files} {p : Path} {l : Location}

theorem Extends.refl (fs : Files) : fs.Extends fs := ⟨rfl, fun _ _ h => h⟩

theorem Extends.trans (h : fs.Extends fs') (h' : fs'.Extends fs'') : fs.Extends fs'' :=
  ⟨h'.working.trans h.working, fun l e he => h'.entry l e (h.entry l e he)⟩

theorem Extends.enter (h : fs.Extends fs') {here : Location} {name : String}
    (hl : fs.enter here name = .ok l) : fs'.enter here name = .ok l := by
  unfold Files.enter at hl ⊢
  cases he : fs.entry? here with
  | none => rw [he] at hl; cases hl
  | some e =>
    rw [he] at hl
    rw [h.entry _ _ he]
    exact hl

theorem Extends.foldlM_enter (h : fs.Extends fs') {names : List String} {start : Location}
    (hl : names.foldlM fs.enter start = .ok l) : names.foldlM fs'.enter start = .ok l := by
  induction names generalizing start with
  | nil => exact hl
  | cons name names ih =>
    rw [List.foldlM_cons] at hl ⊢
    cases he : fs.enter start name with
    | error n => rw [he] at hl; cases hl
    | ok m =>
      rw [he] at hl
      rw [h.enter he]
      exact ih hl

theorem Extends.locate (h : fs.Extends fs') (hl : fs.locate p = .ok l) : fs'.locate p = .ok l := by
  unfold Files.locate at hl ⊢
  split at hl
  · cases hl
  · rename_i hshort
    rw [if_neg hshort, h.working]
    exact h.foldlM_enter hl

/-- There is a directory at a path when the path leads to one. -/
theorem isDirectory_iff :
    fs.isDirectory p = true ↔ ∃ l, fs.locate p = .ok l ∧ fs.entry? l = some .directory := by
  unfold isDirectory stat
  cases fs.locate p with
  | error n => simp [bind, Except.bind]
  | ok l =>
    cases he : fs.entry? l with
    | none => simp [bind, Except.bind, he]
    | some e => cases e <;> simp [bind, Except.bind, he]

/-- **A directory stays.** -/
theorem Extends.isDirectory (h : fs.Extends fs') (hp : fs.isDirectory p = true) :
    fs'.isDirectory p = true := by
  obtain ⟨l, hl, he⟩ := isDirectory_iff.mp hp
  exact isDirectory_iff.mpr ⟨l, h.locate hl, h.entry l _ he⟩

/-! ## 2. Creating directories -/

theorem find_entry_set (l x : Location) (e : FileEntry) (hl : l ≠ []) :
    Files.entry? { fs with entries := Entries.set l e fs.entries } x =
      if x = l then some e else fs.entry? x := by
  unfold entry?
  rw [Entries.find?_set]
  by_cases hx : x = l
  · simp [hx, hl]
  · simp [hx]

/-- Creating one directory adds it. -/
theorem extends_makeDirectory (h : fs.makeDirectory p = .ok fs') :
    fs.Extends fs' ∧ fs'.isDirectory p = true := by
  unfold makeDirectory at h
  cases hl : fs.locate p with
  | error n => rw [hl] at h; cases h
  | ok l =>
    rw [hl] at h
    cases he : fs.entry? l with
    | some e => simp [bind, Except.bind, he] at h
    | none =>
      simp only [bind, Except.bind, he, Except.ok.injEq] at h
      have root : l ≠ [] := fun heq => by
        rw [heq] at he
        cases he
      have added : fs.Extends fs' := by
        subst h
        refine ⟨rfl, fun x e hx => ?_⟩
        have other : x ≠ l := fun heq => by
          rw [heq, he] at hx
          cases hx
        rw [find_entry_set l x _ root, if_neg other]
        exact hx
      refine ⟨added, isDirectory_iff.mpr ⟨l, added.locate hl, ?_⟩⟩
      subst h
      rw [find_entry_set l l _ root, if_pos rfl]

theorem isDirectory_of_unlessPresent {mayExist : Bool} {number : Int}
    (h : fs.unlessPresent mayExist p number = none) : fs.isDirectory p = true := by
  unfold unlessPresent at h
  split at h
  · rename_i hp
    exact (Bool.and_eq_true_iff.mp hp).2
  · cases h

/-- Creating directories from below adds to the files, and ends with the directory in its place unless
it ends with an error. The induction is on the names above. -/
theorem makeDirectoriesUp_spec (mayExist : Bool) (root : String) (names : List String) (fs : Files) :
    fs.Extends (fs.makeDirectoriesUp mayExist root names).1 ∧
      ((fs.makeDirectoriesUp mayExist root names).2 = none →
        (fs.makeDirectoriesUp mayExist root names).1.isDirectory ⟨root, names.reverse⟩ = true) := by
  induction names generalizing fs mayExist with
  | nil => exact ⟨.refl fs, isDirectory_of_unlessPresent⟩
  | cons name above ih =>
    rw [makeDirectoriesUp]
    split
    · rename_i fs₁ made
      obtain ⟨added, there⟩ := extends_makeDirectory made
      exact ⟨added, fun _ => there⟩
    · split
      · exact ⟨.refl fs, isDirectory_of_unlessPresent⟩
      · obtain ⟨upper, _⟩ := ih true fs
        split
        · rename_i fs₁ e hup
          rw [hup] at upper
          exact ⟨upper, nofun⟩
        · rename_i fs₁ hup
          rw [hup] at upper
          split
          · rename_i fs₂ made
            obtain ⟨added, there⟩ := extends_makeDirectory made
            exact ⟨upper.trans added, fun _ => there⟩
          · split
            · exact ⟨upper, nofun⟩
            · exact ⟨upper, isDirectory_of_unlessPresent⟩

theorem extends_makeDirectories (fs : Files) (mayExist : Bool) (p : Path) :
    fs.Extends (fs.makeDirectories mayExist p).1 :=
  (makeDirectoriesUp_spec mayExist p.root p.names.reverse fs).1

/-- **A directory that was created without an error is there.** -/
theorem isDirectory_of_makeDirectories {mayExist : Bool}
    (h : fs.makeDirectories mayExist p = (fs', none)) : fs'.isDirectory p = true := by
  have spec := (makeDirectoriesUp_spec mayExist p.root p.names.reverse fs).2
  rw [List.reverse_reverse] at spec
  unfold makeDirectories at h
  rw [h] at spec
  exact spec rfl

/-! ## 3. The directory of an output -/

/-- A directory is found or created: `fs'` are the files afterwards. -/
inductive Provides (fs : Files) (p : Path) : Files → Prop where
  | there (present : fs.present p = .ok true) (directory : fs.isDirectory p = true) :
      Provides fs p fs
  | created {fs' : Files} (absent : fs.present p = .ok false) (name : p.hasNull = false)
      (made : fs.makeDirectories true p = (fs', none)) : Provides fs p fs'

theorem Provides.extends (h : fs.Provides p fs') : fs.Extends fs' := by
  cases h with
  | there => exact .refl fs
  | created _ _ made =>
    have added := extends_makeDirectories fs true p
    rw [made] at added
    exact added

theorem Provides.isDirectory (h : fs.Provides p fs') : fs'.isDirectory p = true := by
  cases h with
  | there _ directory => exact directory
  | created _ _ made => exact isDirectory_of_makeDirectories made

/-- What came of looking for directories: the files afterwards, the directories that are new, and what
went wrong. -/
structure Found where
  files : Files
  created : List Path
  error? : Option DirectoryError

/-- Looks for a directory and creates it if nothing is there. -/
def ensure (fs : Files) (p : Path) : Found :=
  match fs.present p with
  | .error e => ⟨fs, [], some (.notRead e)⟩
  | .ok true => ⟨fs, [], if fs.isDirectory p then none else some (.notDirectory p)⟩
  | .ok false =>
    if p.hasNull then ⟨fs, [], some .nullInPath⟩
    else match fs.makeDirectories true p with
      | (fs, some e) => ⟨fs, [], some (.notCreated e)⟩
      | (fs, none) => ⟨fs, [p], none⟩

theorem provides_iff :
    fs.Provides p fs' ↔ (fs.ensure p).files = fs' ∧ (fs.ensure p).error? = none := by
  constructor
  · intro h
    cases h with
    | there present directory => rw [ensure, present, directory]; exact ⟨rfl, rfl⟩
    | created absent name made => rw [ensure, absent, name, made]; exact ⟨rfl, rfl⟩
  · rintro ⟨rfl, h⟩
    unfold ensure at h ⊢
    split at h
    · cases h
    · rename_i present
      split at h
      · rename_i directory
        exact .there present directory
      · cases h
    · rename_i absent
      split at h
      · cases h
      · rename_i name
        split at h
        · cases h
        · rename_i made
          rw [if_neg name]
          exact .created absent (Bool.not_eq_true _ ▸ name) made

/-- A name that holds the character NUL is the one fault that no check sees. -/
theorem ensure_null_iff : (fs.ensure p).error? = some .nullInPath ↔ p.hasNull = true := by
  have absent : p.hasNull = true → fs.present p = .ok false := fun h => by rw [present, if_pos h]
  unfold ensure
  split
  · rename_i e he
    refine ⟨nofun, fun h => ?_⟩
    rw [absent h] at he
    cases he
  · rename_i he
    refine ⟨fun h => ?_, fun h => ?_⟩
    · split at h <;> cases h
    · rw [absent h] at he
      cases he
  · split
    · rename_i h
      exact ⟨fun _ => h, fun _ => rfl⟩
    · rename_i h
      refine ⟨fun heq => ?_, fun heq => absurd heq h⟩
      split at heq <;> cases heq

/-! ## 4. The directories of all outputs -/

/-- Every output in turn finds its directory or gets it: `fs'` are the files in the end. -/
inductive Prepares : Files → List Path → Files → Prop where
  | nil (fs : Files) : Prepares fs [] fs
  | cons {fs fs₁ fs' : Files} {o : Path} {os : List Path} (first : fs.Provides o.parent fs₁)
      (rest : Prepares fs₁ os fs') : Prepares fs (o :: os) fs'

variable {outputs : List Path}

theorem Prepares.extends (h : Prepares fs outputs fs') : fs.Extends fs' := by
  induction h with
  | nil fs => exact .refl fs
  | cons first _ ih => exact first.extends.trans ih

/-- **In the end every output has its directory.** -/
theorem Prepares.directories (h : Prepares fs outputs fs') :
    ∀ o ∈ outputs, fs'.isDirectory o.parent = true := by
  induction h with
  | nil fs => exact nofun
  | cons first rest ih =>
    intro o ho
    rcases List.mem_cons.mp ho with rfl | ho
    · exact rest.extends.isDirectory first.isDirectory
    · exact ih o ho

/-- Looks for the directories of all outputs and stops at the first error. -/
def ensureAll (fs : Files) : List Path → Found
  | [] => ⟨fs, [], none⟩
  | o :: os =>
    let first := fs.ensure o.parent
    match first.error? with
    | some e => ⟨first.files, first.created, some e⟩
    | none =>
      let more := first.files.ensureAll os
      ⟨more.files, first.created ++ more.created, more.error?⟩

/-- **All directories are there in the end exactly when there is no error.** -/
theorem prepares_iff : Prepares fs outputs fs' ↔
    (fs.ensureAll outputs).files = fs' ∧ (fs.ensureAll outputs).error? = none := by
  constructor
  · intro h
    induction h with
    | nil fs => exact ⟨rfl, rfl⟩
    | cons first _ ih =>
      obtain ⟨rfl, h⟩ := provides_iff.mp first
      simp only [ensureAll, h]
      exact ih
  · rintro ⟨rfl, h⟩
    induction outputs generalizing fs with
    | nil => exact .nil fs
    | cons o os ih =>
      simp only [ensureAll] at h ⊢
      split at h
      · cases h
      · rename_i hnone
        exact .cons (provides_iff.mpr ⟨rfl, hnone⟩) (ih h)

theorem exists_prepares_iff :
    (∃ fs', Prepares fs outputs fs') ↔ (fs.ensureAll outputs).error? = none := by
  simp [prepares_iff]

theorem not_prepares {e : DirectoryError} (h : (fs.ensureAll outputs).error? = some e) :
    ¬ ∃ fs', Prepares fs outputs fs' := by
  rw [exists_prepares_iff, h]
  exact nofun

/-- An error is the one of the first output whose directory cannot be had. -/
theorem ensureAll_error_iff {e : DirectoryError} :
    (fs.ensureAll outputs).error? = some e ↔ ∃ pre o post fs₁, outputs = pre ++ o :: post ∧
      Prepares fs pre fs₁ ∧ (fs₁.ensure o.parent).error? = some e := by
  constructor
  · intro h
    induction outputs generalizing fs with
    | nil => cases h
    | cons o os ih =>
      simp only [ensureAll] at h
      split at h
      · rename_i e' herr
        exact ⟨[], o, os, fs, rfl, .nil fs, herr.trans h⟩
      · rename_i hnone
        obtain ⟨pre, o', post, fs₂, rfl, hpre, herr⟩ := ih h
        exact ⟨o :: pre, o', post, fs₂, rfl, .cons (provides_iff.mpr ⟨rfl, hnone⟩) hpre, herr⟩
  · rintro ⟨pre, o, post, fs₁, rfl, hpre, herr⟩
    induction hpre with
    | nil fs => simp only [List.nil_append, ensureAll, herr]
    | cons first _ ih =>
      obtain ⟨rfl, h⟩ := provides_iff.mp first
      simp only [List.cons_append, ensureAll, h]
      exact ih herr

/-- A name with the character NUL stops the search when all directories before it are there. -/
theorem ensureAll_null_iff : (fs.ensureAll outputs).error? = some .nullInPath ↔
    ∃ pre o post fs₁, outputs = pre ++ o :: post ∧ Prepares fs pre fs₁ ∧
      o.parent.hasNull = true := by
  simp only [ensureAll_error_iff, ensure_null_iff]

end Files

end FilterGraph
