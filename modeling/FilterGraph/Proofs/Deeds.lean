import FilterGraph.Proofs.Protocol

/-!
# What a run does, apart from what it says

A run of a compiled command in one form: what it does is found out from the files, from the processes
to come and from the version in the cache, and from nothing else; what it says is read off what it
does, and only this depends on the verbosity.

* `Deed`: what a compiled command does, with its outcome, its starts, what it keeps in the cache and
  what it reports; `Session.deed`: how it is found out, `Session.Does`: the ways in which it comes out;
* **`Performed.eq_deed`**: a compiled command does this and nothing else;
* `Graph.on_run_of_error`, `Graph.on_run_of_ok`: a whole run in closed form.
-/

namespace FilterGraph

/-! ## 1. Deeds -/

/-- What a compiled command does. -/
inductive Deed where
  /-- On a dry run: nothing. -/
  | announced
  /-- An output does not get its directory. -/
  | obstructed (found : Files.Found) (e : DirectoryError)
  /-- The executable is asked for its version and tells none. -/
  | unprobed (found : Files.Found) (probe : Start) (e : ProbeError)
  /-- The conversion is started, after a probe unless the version is known. -/
  | converted (found : Files.Found) (probe : Option Start) (version : String) (conversion : Start)

/-- What a command does in a session. -/
def Session.deed (s : Session) (dryRun : Bool) (executable : String) (rest : List String)
    (outputs : List Path) : Deed :=
  if dryRun then .announced
  else
    let found := s.files.ensureAll outputs
    let probe := s.nth 0 (probeVector executable)
    match found.error?, s.answer? (versionKey executable), probe.version executable with
    | some e, _, _ => .obstructed found e
    | none, some v, _ => .converted found none v (s.nth 0 (executable :: rest))
    | none, none, .error e => .unprobed found probe e
    | none, none, .ok v => .converted found (some probe) v (s.nth 1 (executable :: rest))

namespace Deed

variable (mode : RunMode) (executable : String) (rest : List String)

/-- How the command ends. -/
def outcome : Deed → Except RunFault RunResult
  | announced => .ok ⟨true, "", executable :: rest, none, none⟩
  | obstructed _ e => e.ending (executable :: rest)
  | unprobed _ _ e => e.ending (executable :: rest)
  | converted _ _ v t => t.ending executable rest v

/-- The files afterwards. -/
def files (before : Files) : Deed → Files
  | announced => before
  | obstructed found _ | unprobed found _ _ | converted found _ _ _ => found.files

/-- The starts that were made, with what came of each. -/
def starts : Deed → List (List String × Start)
  | announced | obstructed _ _ => []
  | unprobed _ t _ => [(probeVector executable, t)]
  | converted _ probe _ t =>
    (probe.toList.map fun t => (probeVector executable, t)) ++ [(executable :: rest, t)]

/-- The version that a probe told. -/
def learnt : Deed → Option String
  | converted _ (some _) v _ => some v
  | _ => none

/-- The cache afterwards: a version that was learnt is kept. -/
def cache (before : List (String × Json)) (d : Deed) : List (String × Json) :=
  match d.learnt with
  | some v => Entries.set (versionKey executable) (.string v) before
  | none => before

/-- What is said about it. -/
def report : Deed → List Event
  | announced => [.status ("Command: " ++ Shell.line (executable :: rest))]
  | obstructed found _ => mode.verbosity.creations found.created
  | unprobed found t _ => mode.verbosity.creations found.created ++ t.reports .none executable
  | converted found probe v t =>
    mode.verbosity.creations found.created ++ probe.toList.flatMap (·.reports .none executable) ++
      (mode.versionReport v ++ mode.reporting.announcement (executable :: rest) ++
        t.reports mode.reporting executable)

end Deed

/-- The behaviours that are left after some starts: each process has used one up. -/
def Session.leftAfter (s : Session) (vectors : List (List String)) : List Child :=
  vectors.foldl (fun children argv => if s.host.takes argv then children.tail else children)
    s.children

/-- The session after a command did something. -/
def Session.after (s : Session) (mode : RunMode) (executable : String) (rest : List String)
    (d : Deed) : Session where
  host := s.host
  files := d.files s.files
  cache := d.cache executable s.cache
  children := s.leftAfter ((d.starts executable rest).map (·.1))
  starts := s.starts ++ (d.starts executable rest).map (·.1)
  events := s.events ++ d.report mode executable rest

variable {mode : RunMode} {executable : String} {rest : List String} {outputs : List Path}
  {s s' t : Session} {r : Except RunFault RunResult}

/-- The ways in which it comes out what a command does. -/
inductive Session.Does (s : Session) (dryRun : Bool) (executable : String) (rest : List String)
    (outputs : List Path) : Deed → Prop where
  | dry (h : dryRun = true) : Does s dryRun executable rest outputs .announced
  | obstructed {e : DirectoryError} (h : dryRun = false)
      (he : (s.files.ensureAll outputs).error? = some e) :
      Does s dryRun executable rest outputs (.obstructed (s.files.ensureAll outputs) e)
  | known {v : String} (h : dryRun = false) (he : (s.files.ensureAll outputs).error? = none)
      (known : s.answer? (versionKey executable) = some v) :
      Does s dryRun executable rest outputs
        (.converted (s.files.ensureAll outputs) none v (s.nth 0 (executable :: rest)))
  | unprobed {e : ProbeError} (h : dryRun = false)
      (he : (s.files.ensureAll outputs).error? = none)
      (unknown : s.answer? (versionKey executable) = none)
      (told : (s.nth 0 (probeVector executable)).version executable = .error e) :
      Does s dryRun executable rest outputs
        (.unprobed (s.files.ensureAll outputs) (s.nth 0 (probeVector executable)) e)
  | probed {v : String} (h : dryRun = false) (he : (s.files.ensureAll outputs).error? = none)
      (unknown : s.answer? (versionKey executable) = none)
      (told : (s.nth 0 (probeVector executable)).version executable = .ok v) :
      Does s dryRun executable rest outputs
        (.converted (s.files.ensureAll outputs) (some (s.nth 0 (probeVector executable))) v
          (s.nth 1 (executable :: rest)))

/-- **A deed comes out in one of these ways.** -/
theorem Session.does (s : Session) (dryRun : Bool) (executable : String) (rest : List String)
    (outputs : List Path) :
    s.Does dryRun executable rest outputs (s.deed dryRun executable rest outputs) := by
  unfold deed
  cases h : dryRun with
  | true => exact .dry rfl
  | false =>
    rw [if_neg Bool.false_ne_true]
    dsimp only
    split
    case h_1 he => exact .obstructed rfl he
    case h_2 he known => exact .known rfl he known
    case h_3 he unknown told => exact .unprobed rfl he unknown told
    case h_4 he unknown told => exact .probed rfl he unknown told

/-- What a command does depends on the host, the files, the processes to come and the version in the
cache. -/
theorem deed_congr (host : t.host = s.host) (files : t.files = s.files)
    (children : t.children = s.children)
    (version : t.answer? (versionKey executable) = s.answer? (versionKey executable))
    (dryRun : Bool) :
    t.deed dryRun executable rest outputs = s.deed dryRun executable rest outputs := by
  have nth : ∀ k argv, t.nth k argv = s.nth k argv := fun k argv => by
    rw [Session.nth, Session.nth, Session.child, Session.child, host, children]
  unfold Session.deed
  simp only [files, version, nth]

/-- **A compiled command does its deed**, and ends and leaves the session as the deed says. -/
theorem Performed.eq_deed (h : Performed mode executable rest outputs s r s') :
    r = (s.deed mode.dryRun executable rest outputs).outcome executable rest ∧
      s' = s.after mode executable rest (s.deed mode.dryRun executable rest outputs) := by
  cases h with
  | dry h =>
    have deed : s.deed mode.dryRun executable rest outputs = .announced := by
      rw [Session.deed, if_pos h]
    rw [deed]
    refine ⟨rfl, ?_⟩
    simp [Session.after, Session.saying, Session.leftAfter, Deed.files, Deed.cache, Deed.learnt,
      Deed.starts, Deed.report]
  | @obstructed e h he =>
    have deed : s.deed mode.dryRun executable rest outputs =
        .obstructed (s.files.ensureAll outputs) e := by
      simp [Session.deed, h, he]
    rw [deed]
    refine ⟨rfl, ?_⟩
    simp [Session.after, Session.found, Session.saying, Session.leftAfter, Deed.files, Deed.cache,
      Deed.learnt, Deed.starts, Deed.report]
  | @unprobed e h he unknown told =>
    rw [s.next_eq_nth] at told
    have deed : s.deed mode.dryRun executable rest outputs =
        .unprobed (s.files.ensureAll outputs) (s.nth 0 (probeVector executable)) e := by
      simp [Session.deed, h, he, unknown, told]
    rw [deed, s.next_eq_nth]
    refine ⟨rfl, ?_⟩
    simp [Session.after, Session.found, Session.saying, Session.ran, Deed.files, Deed.cache,
      Deed.learnt, Deed.starts, Deed.report]
    rfl
  | @converted v s₁ h he version =>
    cases version with
    | known known =>
      have cached : s.answer? (versionKey executable) = some v := known
      have next : (s.found mode.verbosity (s.files.ensureAll outputs)).next (executable :: rest) =
          s.nth 0 (executable :: rest) := s.next_eq_nth _
      have deed : s.deed mode.dryRun executable rest outputs =
          .converted (s.files.ensureAll outputs) none v (s.nth 0 (executable :: rest)) := by
        simp [Session.deed, h, he, cached]
      rw [deed, next]
      refine ⟨rfl, ?_⟩
      simp [Session.after, Session.found, Session.saying, Session.ran, Deed.files, Deed.cache,
        Deed.learnt, Deed.starts, Deed.report]
      rfl
    | probed unknown told =>
      have unknown : s.answer? (versionKey executable) = none := unknown
      have first : (s.found mode.verbosity (s.files.ensureAll outputs)).next
          (probeVector executable) = s.nth 0 (probeVector executable) := s.next_eq_nth _
      rw [first] at told ⊢
      have takes := Session.takes_of_version told
      have second : (((s.found mode.verbosity (s.files.ensureAll outputs)).ran
          (probeVector executable) ((s.nth 0 (probeVector executable)).reports .none
            executable)).remember (versionKey executable) (.string v)).next (executable :: rest) =
          s.nth 1 (executable :: rest) :=
        (Session.next_eq_nth _ _).trans (s.nth_ran takes [] 0 (executable :: rest))
      have deed : s.deed mode.dryRun executable rest outputs =
          .converted (s.files.ensureAll outputs) (some (s.nth 0 (probeVector executable))) v
            (s.nth 1 (executable :: rest)) := by
        simp [Session.deed, h, he, unknown, told]
      rw [deed, second]
      refine ⟨rfl, ?_⟩
      simp [Session.after, Session.found, Session.saying, Session.ran, Session.remember, Deed.files,
        Deed.cache, Deed.learnt, Deed.starts, Deed.report]
      rfl

/-! ## 2. Whole runs -/

/-- What the failure of a compilation comes to: a result, unless a stream has no name. -/
def CompileError.ending (g : Graph) : CompileError → Except RunFault RunResult
  | .graph e => .ok (.invalidGraph (e.message g))
  | .unnamed u => .error (.unnamed u)

namespace Graph

variable {g : Graph} {settings : Settings} {streams : List Stream}

/-- **A graph without a command is only reported.** -/
theorem on_run_of_error {e : CompileError} (h : g.compile settings streams = .error e) :
    (g.run settings mode streams).on s =
      (e.ending g, s.saying (g.compileReport settings streams)) := by
  have way := g.course settings mode streams s
  generalize (g.run settings mode streams).on s = out at way ⊢
  obtain ⟨r, s'⟩ := out
  cases way with
  | unnamed hu =>
    cases h.symm.trans hu
    rfl
  | invalid he =>
    cases h.symm.trans he
    rfl
  | compiled hc => exact absurd (h.symm.trans hc) nofun

/-- **A graph with a command does the deed of the command.** -/
theorem on_run_of_ok {paths : List String}
    (h : g.compile settings streams = .ok (settings.executable :: rest))
    (hp : g.outputPaths streams = .ok paths) :
    (g.run settings mode streams).on s =
      ((s.deed mode.dryRun settings.executable rest (paths.map Path.ofString)).outcome
          settings.executable rest,
        (s.saying (g.compileReport settings streams)).after mode settings.executable rest
          (s.deed mode.dryRun settings.executable rest (paths.map Path.ofString))) := by
  have way := g.course settings mode streams s
  generalize (g.run settings mode streams).on s = out at way ⊢
  obtain ⟨r, s'⟩ := out
  cases way with
  | unnamed hu => exact absurd (h.symm.trans hu) nofun
  | invalid he => exact absurd (h.symm.trans he) nofun
  | compiled hc hp' performed =>
    cases h.symm.trans hc
    cases hp.symm.trans hp'
    obtain ⟨outcome, after⟩ := performed.eq_deed
    exact Prod.ext outcome after

/-- A compilation fails, or gives a command with output paths. -/
theorem compile_cases (g : Graph) (settings : Settings) (streams : List Stream) :
    (∃ e, g.compile settings streams = .error e) ∨ ∃ rest paths,
      g.compile settings streams = .ok (settings.executable :: rest) ∧
        g.outputPaths streams = .ok paths := by
  cases h : g.compile settings streams with
  | error e => exact .inl ⟨e, rfl⟩
  | ok args =>
    obtain ⟨c, hc, rfl⟩ := compile_eq_ok_iff.mp h
    obtain ⟨paths, hp⟩ := exists_outputPaths hc
    exact .inr ⟨c.rest settings, paths, rfl, hp⟩

end Graph

end FilterGraph
