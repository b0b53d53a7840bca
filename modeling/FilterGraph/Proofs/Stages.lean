import FilterGraph.Proofs.Compilation
import FilterGraph.Proofs.Directories

/-!
# What each stage of a run does

Every stage is brought into a closed form: the outcome, and the session after it, from the session
before it. The later stages are read off these forms and never unfold an earlier stage.

* `Act.on`: the outcome of a step and the session after it; `Session.saying`, `Session.ran`: what a
  step does to a session; `Start.reply`: what a start gives;
* `on_runTool`, `on_probeVersion`, `on_lookUpVersion`, `on_convert`, `on_makeParents`: the stages;
* `Performed`: the ways in which a compiled command goes, **`performed`**: there is no other;
* `Graph.Course`, **`Graph.course`**: the same for a whole run.
-/

namespace FilterGraph

/-! ## 1. Sessions -/

namespace Session

/-- The session after some things were said. -/
def saying (s : Session) (events : List Event) : Session := { s with events := s.events ++ events }

/-- The session after a start and after some things were said. -/
def ran (s : Session) (argv : List String) (events : List Event) : Session :=
  { s with children := s.left argv, starts := s.starts ++ [argv], events := s.events ++ events }

variable (s : Session) (argv : List String) (es fs : List Event)

@[simp] theorem saying_nil : s.saying [] = s := by
  simp [saying]

@[simp] theorem saying_saying : (s.saying es).saying fs = s.saying (es ++ fs) := by
  simp [saying]

theorem next_saying : (s.saying es).next argv = s.next argv := rfl

@[simp] theorem saying_ran : (s.saying es).ran argv fs = s.ran argv (es ++ fs) := by
  simp only [saying, ran, List.append_assoc]
  rfl

@[simp] theorem ran_saying : (s.ran argv es).saying fs = s.ran argv (es ++ fs) := by
  simp [saying, ran]

end Session

/-! ## 2. Steps -/

namespace Act

variable {ε α β : Type}

/-- The outcome of a step and the session after it. -/
def on (a : Act ε α) (s : Session) : Except ε α × Session := a.run.run s

@[simp] theorem on_pure (v : α) (s : Session) : (pure v : Act ε α).on s = (.ok v, s) := rfl

@[simp] theorem on_throw (e : ε) (s : Session) : (throw e : Act ε α).on s = (.error e, s) := rfl

theorem on_bind (a : Act ε α) (f : α → Act ε β) (s : Session) :
    (a >>= f).on s = match a.on s with
      | (.ok v, s') => (f v).on s'
      | (.error e, s') => (.error e, s') := by
  have step : (a >>= f).on s = (ExceptT.bindCont f (a.on s).1).run (a.on s).2 := rfl
  rw [step]
  rcases a.on s with ⟨_ | v, s'⟩ <;> rfl

theorem on_map (f : α → β) (a : Act ε α) (s : Session) :
    (f <$> a).on s = ((a.on s).1.map f, (a.on s).2) := by
  change (a >>= fun v => pure (f v)).on s = _
  rw [on_bind]
  rcases a.on s with ⟨_ | v, s'⟩ <;> rfl

@[simp] theorem on_get (s : Session) : (get : Act ε Session).on s = (.ok s, s) := rfl

@[simp] theorem on_modify (f : Session → Session) (s : Session) :
    (modify f : Act ε Unit).on s = (.ok (), f s) := rfl

@[simp] theorem on_say (e : Event) (s : Session) :
    (say e : Act ε Unit).on s = (.ok (), s.saying [e]) := rfl

@[simp] theorem on_start (argv : List String) (s : Session) :
    (start argv : Act ε Start).on s = (.ok (s.next argv), s.ran argv []) := by
  simp [start, Session.ran]
  rfl

@[simp] theorem on_attempt {ε' : Type} (a : Act ε' α) (s : Session) :
    (attempt a : Act ε (Except ε' α)).on s = (.ok (a.on s).1, (a.on s).2) := rfl

/-- Saying one thing after the other. -/
@[simp] theorem on_forM_say (f : α → Event) (ms : List α) (s : Session) :
    (forM ms fun m => (say (f m) : Act ε Unit)).on s = (.ok (), s.saying (ms.map f)) := by
  induction ms generalizing s with
  | nil => simp
  | cons m ms ih =>
    rw [List.forM_cons, on_bind, on_say]
    refine (ih _).trans ?_
    simp

end Act

/-! ## 3. Starts -/

namespace Start

/-- What a start gives. -/
def reply (executable : String) (args : List String) : Start → Except ProcessError String
  | barred => .error .nullInArgument
  | child (.refused number) => .error (.notStarted ⟨number, executable⟩)
  | child (.ran output code) =>
    if code = 0 then .ok output else .error (.failed (executable :: args) code)

/-- What is said about a process while it runs. -/
def reports (how : Reporting) (executable : String) : Start → List Event
  | barred | child (.refused _) => []
  | child (.ran output code) =>
    (if how.streaming then (Progress.messages output).map .status else []) ++
      if code = 0 ∧ how.streaming = false then [.debug (executable ++ " exited with 0")] else []

/-- The version that a probe tells. -/
def version (executable : String) (t : Start) : Except ProbeError String :=
  match t.reply executable ["-version"] with
  | .error e => .error (.ofProcess executable e)
  | .ok output => match Text.firstLine? output with
    | some line => .ok (Text.strip line)
    | none => .error .silent

/-- What a conversion comes to: a result, unless the host does not take its vector. -/
def conversion (executable : String) (rest : List String) (t : Start) :
    Except RunFault RunResult :=
  match t.reply executable rest with
  | .ok output => .ok ⟨true, "", executable :: rest, some output, none⟩
  | .error .nullInArgument => .error .nullInArgument
  | .error e => .ok ⟨false, failureText e.message, executable :: rest, none, none⟩

/-- What a conversion comes to after the version was found. -/
def ending (executable : String) (rest : List String) (v : String) (t : Start) :
    Except RunFault RunResult :=
  (t.conversion executable rest).map fun res => { res with version := some v }

end Start

/-- What is said before a command is started. -/
def Reporting.announcement (how : Reporting) (argv : List String) : List Event :=
  if how.announcing then [.status ("Running: " ++ Shell.line argv)] else []

open Act

/-- The vector that asks an executable for its version. -/
def probeVector (executable : String) : List String := [executable, "-version"]

variable {executable : String} {rest args : List String} {s : Session}

/-- **Running the tool makes one start, whatever comes of it.** -/
theorem on_runTool (how : Reporting) :
    (runTool how executable args).on s = ((s.next (executable :: args)).reply executable args,
      s.ran (executable :: args) (how.announcement (executable :: args) ++
        (s.next (executable :: args)).reports how executable)) := by
  obtain ⟨streaming, announcing⟩ := how
  unfold runTool
  cases announcing <;> rcases ht : s.next (executable :: args) with _ | number | ⟨output, code⟩
  case false.child.ran | true.child.ran =>
    cases streaming <;> by_cases hcode : code = 0 <;>
      simp [Start.reply, Start.reports, Reporting.announcement, on_bind, on_map, Except.map,
        Session.next_saying, ht, hcode]
  all_goals
    simp [Start.reply, Start.reports, Reporting.announcement, on_bind, Session.next_saying, ht]

theorem on_probeVersion :
    (probeVersion executable).on s = ((s.next (probeVector executable)).version executable,
      s.ran (probeVector executable)
        ((s.next (probeVector executable)).reports .none executable)) := by
  have silent : Reporting.none.announcement (probeVector executable) = [] := rfl
  unfold probeVersion Start.version
  rw [on_bind, on_attempt, on_runTool, ← probeVector, silent, List.nil_append]
  cases (s.next (probeVector executable)).reply executable ["-version"] with
  | error e => rfl
  | ok output => cases h : Text.firstLine? output <;> simp [h]

/-- A version that is known is not asked for. -/
theorem on_lookUpVersion_known {v : String} (h : s.answer? (versionKey executable) = some v) :
    (lookUpVersion executable).on s = (.ok v, s) := by
  unfold lookUpVersion remembered
  simp [on_bind, h, Json.text]

/-- A version that is not known is asked for, and kept if there is one. -/
theorem on_lookUpVersion_unknown (h : s.answer? (versionKey executable) = none) :
    (lookUpVersion executable).on s = ((s.next (probeVector executable)).version executable,
      let asked := s.ran (probeVector executable)
        ((s.next (probeVector executable)).reports .none executable)
      match (s.next (probeVector executable)).version executable with
      | .ok v => asked.remember (versionKey executable) (.string v)
      | .error _ => asked) := by
  unfold lookUpVersion remembered
  simp only [on_bind, on_map, on_get, h, on_probeVersion]
  cases (s.next (probeVector executable)).version executable with
  | error e => simp [Except.map]
  | ok v => simp [Except.map, Json.text]

theorem on_convert (how : Reporting) :
    (convert how executable rest).on s =
      ((s.next (executable :: rest)).conversion executable rest,
        s.ran (executable :: rest) (how.announcement (executable :: rest) ++
          (s.next (executable :: rest)).reports how executable)) := by
  unfold convert Start.conversion
  rw [on_bind, on_attempt, on_runTool]
  rcases (s.next (executable :: rest)).reply executable rest with (_ | _ | _) | _ <;> rfl

/-! ## 4. Output directories -/

/-- What is said about directories that were created. -/
def Verbosity.creations (verbosity : Verbosity) (created : List Path) : List Event :=
  if verbosity.showsCommands then
    created.map fun p => .status ("Created output directory: " ++ p.text)
  else []

/-- The session after directories were looked for. -/
def Session.found (s : Session) (verbosity : Verbosity) (found : Files.Found) : Session :=
  { s with files := found.files }.saying (verbosity.creations found.created)

/-- Whether directories were found, as an outcome. -/
def Files.Found.outcome (found : Files.Found) : Except DirectoryError Unit :=
  match found.error? with
  | some e => .error e
  | none => .ok ()

theorem on_makeParent (verbosity : Verbosity) (o : Path) :
    (makeParent verbosity o).on s = ((s.files.ensure o.parent).outcome,
      s.found verbosity (s.files.ensure o.parent)) := by
  unfold makeParent Files.ensure Files.Found.outcome Session.found Verbosity.creations
  rw [on_bind, on_get]
  cases hp : s.files.present o.parent with
  | error e => simp [hp]
  | ok present =>
    cases present with
    | true => cases hd : s.files.isDirectory o.parent <;> simp [hp, hd]
    | false =>
      cases hn : o.parent.hasNull with
      | true => simp [hp]
      | false =>
        rcases hm : s.files.makeDirectories true o.parent with ⟨fs, _ | e⟩
        · cases verbosity.showsCommands <;> simp [hp, hm, on_bind]
        · simp [hp, hm, on_bind]

theorem found_found (verbosity : Verbosity) (a b : Files.Found) :
    (s.found verbosity a).found verbosity b =
      s.found verbosity ⟨b.files, a.created ++ b.created, b.error?⟩ := by
  unfold Session.found Session.saying Verbosity.creations
  cases verbosity.showsCommands <;> simp

/-- **The directories of all outputs are looked for one after the other.** -/
theorem on_makeParents (verbosity : Verbosity) (outputs : List Path) :
    (outputs.forM (makeParent verbosity)).on s = ((s.files.ensureAll outputs).outcome,
      s.found verbosity (s.files.ensureAll outputs)) := by
  induction outputs generalizing s with
  | nil => simp [Files.ensureAll, Files.Found.outcome, Session.found, Verbosity.creations]
  | cons o os ih =>
    rw [List.forM_eq_forM, List.forM_cons, on_bind, on_makeParent]
    rw [List.forM_eq_forM] at ih
    simp only [Files.ensureAll, Files.Found.outcome] at ih ⊢
    cases he : (s.files.ensure o.parent).error? with
    | some e => rfl
    | none =>
      refine ih.trans ?_
      rw [found_found]
      rfl

/-! ## 5. A compiled command -/

/-- What an error with a directory comes to: a result, unless a name holds the character NUL. -/
def DirectoryError.ending (args : List String) : DirectoryError → Except RunFault RunResult
  | .nullInPath => .error .nullInPath
  | e => .ok ⟨false, e.message, args, none, none⟩

/-- What the failure of a probe comes to: a result, unless the probe said nothing or the host does
not take its vector. -/
def ProbeError.ending (args : List String) : ProbeError → Except RunFault RunResult
  | .silent => .error .silentProbe
  | .nullInArgument => .error .nullInArgument
  | e => .ok ⟨false, e.message, args, none, none⟩

theorem DirectoryError.ending_eq_error_iff {e : DirectoryError} {f : RunFault} :
    e.ending args = .error f ↔ e = .nullInPath ∧ f = .nullInPath := by
  cases e <;> simp [DirectoryError.ending, eq_comm]

theorem DirectoryError.ending_eq_ok_iff {e : DirectoryError} {res : RunResult} :
    e.ending args = .ok res ↔ e ≠ .nullInPath ∧ ⟨false, e.message, args, none, none⟩ = res := by
  cases e <;> simp [DirectoryError.ending]

theorem ProbeError.ending_eq_error_iff {e : ProbeError} {f : RunFault} :
    e.ending args = .error f ↔ e = .silent ∧ f = .silentProbe ∨
      e = .nullInArgument ∧ f = .nullInArgument := by
  cases e <;> simp [ProbeError.ending, eq_comm]

theorem ProbeError.ending_eq_ok_iff {e : ProbeError} {res : RunResult} :
    e.ending args = .ok res ↔ e ≠ .silent ∧ e ≠ .nullInArgument ∧
      ⟨false, e.message, args, none, none⟩ = res := by
  cases e <;> simp [ProbeError.ending]

/-- The version of the executable is known, or asked for and kept: `s₁` is the session afterwards. -/
inductive Versioned (executable : String) (s : Session) : String → Session → Prop where
  | known {v : String} (h : s.answer? (versionKey executable) = some v) : Versioned executable s v s
  | probed {v : String} (unknown : s.answer? (versionKey executable) = none)
      (told : (s.next (probeVector executable)).version executable = .ok v) :
      Versioned executable s v ((s.ran (probeVector executable)
        ((s.next (probeVector executable)).reports .none executable)).remember
          (versionKey executable) (.string v))

theorem Versioned.on_lookUpVersion {v : String} {s₁ : Session} (h : Versioned executable s v s₁) :
    (lookUpVersion executable).on s = (.ok v, s₁) := by
  cases h with
  | known h => exact on_lookUpVersion_known h
  | probed unknown told => rw [on_lookUpVersion_unknown unknown, told]

theorem on_prepare_obstructed {mode : RunMode} {outputs : List Path} {e : DirectoryError}
    (he : (s.files.ensureAll outputs).error? = some e) :
    (prepare mode executable outputs).on s =
      (.error (.inl e), s.found mode.verbosity (s.files.ensureAll outputs)) := by
  unfold prepare
  rw [on_bind, on_attempt, on_makeParents, Files.Found.outcome, he]
  rfl

/-- After the directories the version is looked up. -/
theorem on_prepare {mode : RunMode} {outputs : List Path} {r : Except ProbeError String}
    {s₁ : Session} (he : (s.files.ensureAll outputs).error? = none)
    (hv : (lookUpVersion executable).on (s.found mode.verbosity (s.files.ensureAll outputs)) =
      (r, s₁)) : (prepare mode executable outputs).on s = (r.mapError .inr, s₁) := by
  unfold prepare
  rw [on_bind, on_attempt, on_makeParents, Files.Found.outcome, he]
  simp only [on_bind, on_attempt, hv]
  cases r <;> rfl

/-- How the conversion is reported. -/
def RunMode.reporting (mode : RunMode) : Reporting :=
  ⟨mode.verbosity.streamsOutput, mode.verbosity.showsCommands⟩

/-- What is said about the version before the conversion. -/
def RunMode.versionReport (mode : RunMode) (v : String) : List Event :=
  .debug ("Using " ++ v) ::
    if mode.verbosity.showsCommands then [.status ("Using " ++ v)] else []

/-- The ways in which a compiled command goes: the outcome and the session afterwards. -/
inductive Performed (mode : RunMode) (executable : String) (rest : List String)
    (outputs : List Path) (s : Session) : Except RunFault RunResult → Session → Prop where
  | dry (h : mode.dryRun = true) :
      Performed mode executable rest outputs s (.ok ⟨true, "", executable :: rest, none, none⟩)
        (s.saying [.status ("Command: " ++ Shell.line (executable :: rest))])
  | obstructed {e : DirectoryError} (h : mode.dryRun = false)
      (he : (s.files.ensureAll outputs).error? = some e) :
      Performed mode executable rest outputs s (e.ending (executable :: rest))
        (s.found mode.verbosity (s.files.ensureAll outputs))
  | unprobed {e : ProbeError} (h : mode.dryRun = false)
      (he : (s.files.ensureAll outputs).error? = none)
      (unknown : s.answer? (versionKey executable) = none)
      (told : (s.next (probeVector executable)).version executable = .error e) :
      Performed mode executable rest outputs s (e.ending (executable :: rest))
        ((s.found mode.verbosity (s.files.ensureAll outputs)).ran (probeVector executable)
          ((s.next (probeVector executable)).reports .none executable))
  | converted {v : String} {s₁ : Session} (h : mode.dryRun = false)
      (he : (s.files.ensureAll outputs).error? = none)
      (version : Versioned executable (s.found mode.verbosity (s.files.ensureAll outputs)) v s₁) :
      Performed mode executable rest outputs s
        ((s₁.next (executable :: rest)).ending executable rest v)
        (s₁.ran (executable :: rest) (mode.versionReport v ++
          mode.reporting.announcement (executable :: rest) ++
          (s₁.next (executable :: rest)).reports mode.reporting executable))

section Commands

variable {mode : RunMode} {outputs : List Path} {s₁ : Session}

theorem on_performCommand_dry (h : mode.dryRun = true) :
    (performCommand mode executable rest outputs).on s =
      (.ok ⟨true, "", executable :: rest, none, none⟩,
        s.saying [.status ("Command: " ++ Shell.line (executable :: rest))]) := by
  have out : (announce mode (bannerLabel true ++ ": " ++ Shell.line (executable :: rest)) :
      Act RunFault Unit).on s =
      (.ok (), s.saying [.status ("Command: " ++ Shell.line (executable :: rest))]) := by
    unfold announce
    rw [h, Bool.or_true]
    rfl
  unfold performCommand
  rw [h, if_pos rfl, on_bind, out]
  rfl

/-- A command whose preparation fails is not run. -/
theorem on_performCommand_error (h : mode.dryRun = false) {e : DirectoryError ⊕ ProbeError}
    (he : (prepare mode executable outputs).on s = (.error e, s₁)) :
    (performCommand mode executable rest outputs).on s =
      (e.elim (·.ending (executable :: rest)) (·.ending (executable :: rest)), s₁) := by
  unfold performCommand
  rw [h, if_neg Bool.false_ne_true, on_bind, on_attempt, he]
  rcases e with e | e <;> cases e <;> rfl

/-- A command that is prepared is run. -/
theorem on_performCommand_ok (h : mode.dryRun = false) {v : String}
    (hv : (prepare mode executable outputs).on s = (.ok v, s₁)) :
    (performCommand mode executable rest outputs).on s =
      ((s₁.next (executable :: rest)).ending executable rest v,
        s₁.ran (executable :: rest) (mode.versionReport v ++
          mode.reporting.announcement (executable :: rest) ++
          (s₁.next (executable :: rest)).reports mode.reporting executable)) := by
  unfold performCommand
  rw [h, if_neg Bool.false_ne_true, on_bind, on_attempt, hv]
  unfold RunMode.versionReport RunMode.reporting Start.ending
  cases mode.verbosity.showsCommands <;>
    simp [on_bind, on_map, on_convert, Session.next_saying]

end Commands

/-- **A compiled command goes in one of these ways.** -/
theorem performed (mode : RunMode) (executable : String) (rest : List String) (outputs : List Path)
    (s : Session) : Performed mode executable rest outputs s
      ((performCommand mode executable rest outputs).on s).1
      ((performCommand mode executable rest outputs).on s).2 := by
  let found := s.found mode.verbosity (s.files.ensureAll outputs)
  cases h : mode.dryRun with
  | true =>
    rw [on_performCommand_dry h]
    exact .dry h
  | false =>
    cases he : (s.files.ensureAll outputs).error? with
    | some e =>
      rw [on_performCommand_error h (on_prepare_obstructed he)]
      exact .obstructed h he
    | none =>
      cases hk : found.answer? (versionKey executable) with
      | some v =>
        have version : Versioned executable found v found := .known hk
        rw [on_performCommand_ok h (on_prepare he version.on_lookUpVersion)]
        exact .converted h he version
      | none =>
        cases told : (found.next (probeVector executable)).version executable with
        | ok v =>
          have version := Versioned.probed hk told
          rw [on_performCommand_ok h (on_prepare he version.on_lookUpVersion)]
          exact .converted h he version
        | error e =>
          have failed := on_lookUpVersion_unknown hk
          rw [told] at failed
          rw [on_performCommand_error h (on_prepare he failed)]
          exact .unprobed h he hk told

/-! ## 6. A whole run -/

namespace Graph

variable {g : Graph} {settings : Settings} {mode : RunMode} {streams : List Stream}

/-- What a compilation says. -/
def compileReport (g : Graph) (settings : Settings) (streams : List Stream) : List Event :=
  (g.outcomeLog settings streams).map .debug

/-- The ways in which a run goes: the outcome and the session afterwards. -/
inductive Course (g : Graph) (settings : Settings) (mode : RunMode) (streams : List Stream)
    (s : Session) : Except RunFault RunResult → Session → Prop where
  | unnamed {u : Unnamed} (h : g.compile settings streams = .error (.unnamed u)) :
      Course g settings mode streams s (.error (.unnamed u))
        (s.saying (g.compileReport settings streams))
  | invalid {e : GraphError} (h : g.compile settings streams = .error (.graph e)) :
      Course g settings mode streams s (.ok (.invalidGraph (e.message g)))
        (s.saying (g.compileReport settings streams))
  | compiled {rest paths : List String} {r : Except RunFault RunResult} {s' : Session}
      (h : g.compile settings streams = .ok (settings.executable :: rest))
      (hp : g.outputPaths streams = .ok paths)
      (hc : Performed mode settings.executable rest (paths.map Path.ofString)
        (s.saying (g.compileReport settings streams)) r s') :
      Course g settings mode streams s r s'

/-- A graph that has a command has output paths. -/
theorem exists_outputPaths {c : Command} (h : g.command (g.terminals streams) = .ok c) :
    ∃ paths, g.outputPaths streams = .ok paths := by
  obtain ⟨s, T, names, hcomp⟩ := exists_compiled h
  unfold outputPaths sorted
  rw [hcomp.traversed.sort]
  exact ⟨_, rfl⟩

/-- **A run goes in one of these ways.** -/
theorem course (g : Graph) (settings : Settings) (mode : RunMode) (streams : List Stream)
    (s : Session) : g.Course settings mode streams s
      ((g.run settings mode streams).on s).1 ((g.run settings mode streams).on s).2 := by
  unfold run
  rw [List.forM_eq_forM, on_bind, on_forM_say]
  cases hc : g.command (g.terminals streams) with
  | error e =>
    cases e with
    | graph e => exact .invalid (compile_eq_error_iff.mpr hc)
    | unnamed u => exact .unnamed (compile_eq_error_iff.mpr hc)
  | ok c =>
    obtain ⟨paths, hp⟩ := exists_outputPaths hc
    rw [hp]
    exact .compiled (compile_eq_ok_iff.mpr ⟨c, hc, rfl⟩) hp (performed ..)

end Graph

end FilterGraph
