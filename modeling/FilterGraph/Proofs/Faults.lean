import FilterGraph.Proofs.PadOrder
import FilterGraph.Proofs.Protocol

/-!
# What a run does not report in its result

A run ends in a result, and a process that fails shows there, with four exceptions: a graph whose
compilation stops at a stream without a name, a probe that ends well and says nothing, a directory
whose name holds the character NUL, and an argument that holds it.

* `OsError.message_ne_empty`, `DirectoryError.message_ne_empty`, `ProbeError.message_ne_empty`,
  `GraphError.message_ne_empty`: no error has an empty text;
* `Failed`: a result that tells of a failure;
* `Session.Bars`: the host does not take a start that a command comes to;
* `Stops`: why a compiled command ends without a result, `stops_iff_of_obstructed`,
  `stops_iff_of_untold`, `stops_iff_of_obtains`: which reason there is where; `Performed.eq_error_iff`,
  `Course.eq_error_iff`: a command and a run end so for these reasons only;
* `Performed.failed_of_child`: a failed process shows in the result of a command;
* **`Graph.run_reports_failures`**: the exceptions, each with the condition under which it comes
  about, and the failed processes;
* `Graph.silent_probe_escapes`: a run with a probe that says nothing.
-/

namespace FilterGraph

/-! ## 1. Texts of errors -/

theorem append_colon_ne_empty (a b c : String) : a ++ b ++ ": " ++ c ≠ "" := by
  simp

theorem OsError.message_ne_empty (e : OsError) : e.message ≠ "" := append_colon_ne_empty _ _ _

theorem failureText_ne_empty (message : String) : failureText message ≠ "" :=
  fun h => absurd (String.append_eq_empty_iff.mp h).1 (by decide)

theorem DirectoryError.message_ne_empty (e : DirectoryError) : e.message ≠ "" := by
  cases e with
  | notDirectory p => exact failureText_ne_empty _
  | notCreated e => exact failureText_ne_empty _
  | notRead e => exact e.message_ne_empty
  | nullInPath => decide

theorem ProbeError.message_ne_empty (e : ProbeError) : e.message ≠ "" := by
  cases e with
  | notInstalled executable => simp [ProbeError.message]
  | failed executable e => simp [ProbeError.message]
  | notStarted e => exact e.message_ne_empty
  | silent => decide
  | nullInArgument => decide

theorem GraphError.message_ne_empty (g : Graph) (e : GraphError) : e.message g ≠ "" := by
  intro h
  cases e <;> exact absurd (String.append_eq_empty_iff.mp h).2 (by decide)

/-! ## 2. Results that tell of a failure -/

/-- The run ended in a result that tells of a failure. -/
def Failed (r : Except RunFault RunResult) : Prop :=
  ∃ res, r = .ok res ∧ res.success = false ∧ res.error ≠ ""

variable {executable : String} {args rest : List String} {c : Child}

/-- The failure of a probe is told in the result, unless the probe said nothing or was barred. -/
theorem failed_ending_probe {e : ProbeError} (spoke : e ≠ .silent) (taken : e ≠ .nullInArgument) :
    Failed (e.ending args) :=
  ⟨_, ProbeError.ending_eq_ok_iff.mpr ⟨spoke, taken, rfl⟩, rfl, e.message_ne_empty⟩

namespace Start

variable {t : Start}

/-- A probe says nothing when it ends with code 0 and prints nothing. -/
theorem version_silent_iff :
    t.version executable = .error .silent ↔ t = .child (.ran "" 0) := by
  rcases t with _ | number | ⟨output, code⟩
  · exact ⟨nofun, nofun⟩
  · refine ⟨fun h => ?_, nofun⟩
    simp only [version, reply, ProbeError.ofProcess] at h
    split at h <;> cases h
  · by_cases hcode : code = 0
    · by_cases hout : output = ""
      · rw [hcode, hout]
        exact ⟨fun _ => rfl, fun _ => rfl⟩
      · simp [version, reply, Text.firstLine?, hcode, hout]
    · simp [version, reply, ProbeError.ofProcess, hcode]

/-- A probe is barred when the host does not take its vector. -/
theorem version_barred_iff : t.version executable = .error .nullInArgument ↔ t = .barred := by
  rcases t with _ | number | ⟨output, code⟩
  · exact ⟨fun _ => rfl, fun _ => rfl⟩
  · refine ⟨fun h => ?_, nofun⟩
    simp only [version, reply, ProbeError.ofProcess] at h
    split at h <;> cases h
  · by_cases hcode : code = 0
    · cases hout : Text.firstLine? output <;> simp [version, reply, hcode, hout]
    · simp [version, reply, ProbeError.ofProcess, hcode]

/-- A probe that tells a version ended with code 0. -/
theorem exists_of_version_ok {v : String} (h : t.version executable = .ok v) :
    ∃ text, t = .child (.ran text 0) := by
  rcases t with _ | number | ⟨output, code⟩
  · cases h
  · cases h
  · by_cases hcode : code = 0
    · exact ⟨output, by rw [hcode]⟩
    · simp [version, reply, hcode] at h

/-- A conversion has no result exactly when the host does not take it. -/
theorem ending_eq_error_iff {v : String} {f : RunFault} :
    t.ending executable rest v = .error f ↔ t = .barred ∧ f = .nullInArgument := by
  rcases ending_cases executable rest v t with ⟨rfl, heq⟩ | ⟨_, rfl, heq⟩ | ⟨_, _, rfl, _, heq⟩
  · rw [heq]
    exact ⟨fun h => ⟨rfl, (Except.error.inj h).symm⟩, fun h => congrArg _ h.2.symm⟩
  · rw [heq]
    exact ⟨nofun, nofun⟩
  · rw [heq]
    exact ⟨nofun, nofun⟩

/-- A conversion tells an error exactly when it did not succeed. -/
theorem success_iff_of_ending {v : String} {res : RunResult}
    (h : t.ending executable rest v = .ok res) : res.success = true ↔ res.error = "" := by
  rcases ending_cases executable rest v t with ⟨_, heq⟩ | ⟨_, _, heq⟩ | ⟨_, _, _, _, heq⟩
  · cases h.symm.trans heq
  · cases h.symm.trans heq
    exact ⟨fun _ => rfl, fun _ => rfl⟩
  · cases h.symm.trans heq
    exact ⟨nofun, fun he => absurd he (failureText_ne_empty _)⟩

/-- A conversion that does not end with code 0 is told in the result. -/
theorem failed_ending (h : ∀ text, c ≠ .ran text 0) (v : String) :
    Failed ((child c).ending executable rest v) := by
  rcases ending_cases executable rest v (child c) with ⟨none, _⟩ | ⟨text, ht, _⟩ | ⟨_, _, _, _, heq⟩
  · cases none
  · cases ht
    exact absurd rfl (h text)
  · exact ⟨_, heq, rfl, failureText_ne_empty _⟩

end Start

/-! ## 3. Commands -/

/-- The host does not take a start that the command comes to: that of the probe, which is needed, or
that of the conversion, for which there is a version. -/
def Session.Bars (s : Session) (executable : String) (args : List String) : Prop :=
  s.answer? (versionKey executable) = none ∧ s.host.takes (probeVector executable) = false ∨
    (∃ v, s.Obtains executable v) ∧ s.host.takes args = false

/-- Why a compiled command ends without a result. -/
inductive Stops (mode : RunMode) (executable : String) (args : List String) (outputs : List Path)
    (s : Session) : RunFault → Prop where
  | silentProbe (h : mode.dryRun = false) (he : (s.files.ensureAll outputs).error? = none)
      (unknown : s.answer? (versionKey executable) = none)
      (silent : s.nth 0 (probeVector executable) = .child (.ran "" 0)) :
      Stops mode executable args outputs s .silentProbe
  | nullInPath (h : mode.dryRun = false)
      (he : (s.files.ensureAll outputs).error? = some .nullInPath) :
      Stops mode executable args outputs s .nullInPath
  | nullInArgument (h : mode.dryRun = false) (he : (s.files.ensureAll outputs).error? = none)
      (bars : s.Bars executable args) : Stops mode executable args outputs s .nullInArgument

section Commands

variable {mode : RunMode} {outputs : List Path} {s s' : Session} {r : Except RunFault RunResult}
  {f : RunFault}

/-- The probe is the first process, and it is silent. -/
theorem stops_silentProbe_iff : Stops mode executable args outputs s .silentProbe ↔
    mode.dryRun = false ∧ (∃ fs, s.files.Prepares outputs fs) ∧
      s.answer? (versionKey executable) = none ∧
      s.nth 0 (probeVector executable) = .child (.ran "" 0) := by
  rw [Files.exists_prepares_iff]
  constructor
  · intro hs
    cases hs with
    | silentProbe h he unknown silent => exact ⟨h, he, unknown, silent⟩
  · exact fun ⟨h, he, unknown, silent⟩ => .silentProbe h he unknown silent

/-- The command comes to an output whose directory has a name with the character NUL. -/
theorem stops_nullInPath_iff : Stops mode executable args outputs s .nullInPath ↔
    mode.dryRun = false ∧ ∃ pre o post fs, outputs = pre ++ o :: post ∧
      s.files.Prepares pre fs ∧ o.parent.hasNull = true := by
  rw [← Files.ensureAll_null_iff]
  constructor
  · intro hs
    cases hs with
    | nullInPath h he => exact ⟨h, he⟩
  · exact fun ⟨h, he⟩ => .nullInPath h he

/-- The command comes to a start that the host does not take. -/
theorem stops_nullInArgument_iff : Stops mode executable args outputs s .nullInArgument ↔
    mode.dryRun = false ∧ (∃ fs, s.files.Prepares outputs fs) ∧ s.Bars executable args := by
  rw [Files.exists_prepares_iff]
  constructor
  · intro hs
    cases hs with
    | nullInArgument h he bars => exact ⟨h, he, bars⟩
  · exact fun ⟨h, he, bars⟩ => .nullInArgument h he bars

theorem Stops.of_saying {events : List Event}
    (h : Stops mode executable args outputs (s.saying events) f) :
    Stops mode executable args outputs s f := by
  cases h with
  | silentProbe h he unknown silent => exact .silentProbe h he unknown silent
  | nullInPath h he => exact .nullInPath h he
  | nullInArgument h he bars => exact .nullInArgument h he bars

theorem Stops.saying (h : Stops mode executable args outputs s f) (events : List Event) :
    Stops mode executable args outputs (s.saying events) f := by
  cases h with
  | silentProbe h he unknown silent => exact .silentProbe h he unknown silent
  | nullInPath h he => exact .nullInPath h he
  | nullInArgument h he bars => exact .nullInArgument h he bars

/-- Where the version is known or told, the probe is not barred. -/
theorem Session.Obtains.bars_iff {v : String} (h : s.Obtains executable v) :
    s.Bars executable args ↔ s.host.takes args = false := by
  refine ⟨?_, fun none => .inr ⟨⟨v, h⟩, none⟩⟩
  rintro (⟨unknown, none⟩ | ⟨_, none⟩)
  · rcases h with known | ⟨_, told⟩
    · exact absurd (known.symm.trans unknown) nofun
    · exact absurd ((Session.takes_of_version told).symm.trans none) nofun
  · exact none

/-- Where the version is not known and not told, the conversion is not come to. -/
theorem Session.bars_iff_of_untold {e : ProbeError}
    (unknown : s.answer? (versionKey executable) = none)
    (told : (s.nth 0 (probeVector executable)).version executable = .error e) :
    s.Bars executable args ↔ s.nth 0 (probeVector executable) = .barred := by
  constructor
  · rintro (⟨_, none⟩ | ⟨⟨v, obtains⟩, _⟩)
    · exact nth_of_not_takes none 0
    · exact absurd obtains (not_obtains unknown told v)
  · exact fun barred => .inl ⟨unknown, nth_eq_barred_iff.mp barred⟩

/-- A dry run is not stopped. -/
theorem not_stops_of_dry (h : mode.dryRun = true) : ¬ Stops mode executable args outputs s f := by
  intro hs
  cases hs <;> simp_all

/-- Where an output does not get its directory, only the character NUL stops the command. -/
theorem stops_iff_of_obstructed {e : DirectoryError} (h : mode.dryRun = false)
    (he : (s.files.ensureAll outputs).error? = some e) :
    Stops mode executable args outputs s f ↔ e = .nullInPath ∧ f = .nullInPath := by
  constructor
  · intro hs
    cases hs with
    | nullInPath _ null => exact ⟨Option.some.inj (he.symm.trans null), rfl⟩
    | silentProbe _ none | nullInArgument _ none => exact absurd (he.symm.trans none) nofun
  · rintro ⟨rfl, rfl⟩
    exact .nullInPath h he

/-- Where no version is told, the command is stopped by the probe. -/
theorem stops_iff_of_untold {e : ProbeError} (h : mode.dryRun = false)
    (he : (s.files.ensureAll outputs).error? = none)
    (unknown : s.answer? (versionKey executable) = none)
    (told : (s.nth 0 (probeVector executable)).version executable = .error e) :
    Stops mode executable args outputs s f ↔
      e = .silent ∧ f = .silentProbe ∨ e = .nullInArgument ∧ f = .nullInArgument := by
  have untold : s.Bars executable args ↔ s.nth 0 (probeVector executable) = .barred :=
    Session.bars_iff_of_untold unknown told
  constructor
  · intro hs
    cases hs with
    | silentProbe _ _ _ silent =>
      have said := told.symm.trans (Start.version_silent_iff.mpr silent)
      exact .inl ⟨Except.error.inj said, rfl⟩
    | nullInPath _ null => exact absurd (he.symm.trans null) nofun
    | nullInArgument _ _ bars =>
      have said := told.symm.trans (Start.version_barred_iff.mpr (untold.mp bars))
      exact .inr ⟨Except.error.inj said, rfl⟩
  · rintro (⟨rfl, rfl⟩ | ⟨rfl, rfl⟩)
    · exact .silentProbe h he unknown (Start.version_silent_iff.mp told)
    · exact .nullInArgument h he (untold.mpr (Start.version_barred_iff.mp told))

/-- Where there is a version, only the host stops the command. -/
theorem stops_iff_of_obtains {v : String} (h : mode.dryRun = false)
    (he : (s.files.ensureAll outputs).error? = none) (obtains : s.Obtains executable v) :
    Stops mode executable args outputs s f ↔
      s.host.takes args = false ∧ f = .nullInArgument := by
  constructor
  · intro hs
    cases hs with
    | silentProbe _ _ unknown silent =>
      exact absurd obtains (Session.not_obtains unknown (Start.version_silent_iff.mpr silent) v)
    | nullInPath _ null => exact absurd (he.symm.trans null) nofun
    | nullInArgument _ _ bars => exact ⟨obtains.bars_iff.mp bars, rfl⟩
  · rintro ⟨none, rfl⟩
    exact .nullInArgument h he (obtains.bars_iff.mpr none)

namespace Performed

/-- **A command ends without a result exactly for these reasons.** -/
theorem eq_error_iff (hp : Performed mode executable rest outputs s r s') :
    r = .error f ↔ Stops mode executable (executable :: rest) outputs s f := by
  cases hp with
  | dry h => exact ⟨nofun, fun hs => absurd hs (not_stops_of_dry h)⟩
  | obstructed h he => rw [DirectoryError.ending_eq_error_iff, stops_iff_of_obstructed h he]
  | unprobed h he unknown told =>
    rw [s.next_eq_nth] at told
    rw [ProbeError.ending_eq_error_iff, stops_iff_of_untold h he unknown told]
  | @converted v s₁ h he version =>
    obtain ⟨before, obtained, _, _, next⟩ := version.before
    have obtains : s.Obtains executable v := obtained.imp And.right And.right
    have next : s₁.next (executable :: rest) = s.nth before.length (executable :: rest) := next _
    rw [Start.ending_eq_error_iff, next, Session.nth_eq_barred_iff, stops_iff_of_obtains h he obtains]

/-- A result tells an error exactly when the command did not succeed. -/
theorem success_iff {res : RunResult}
    (h : Performed mode executable rest outputs s (.ok res) s') :
    res.success = true ↔ res.error = "" := by
  generalize hr : Except.ok res = r at h
  cases h with
  | dry =>
    cases hr
    exact ⟨fun _ => rfl, fun _ => rfl⟩
  | @obstructed e =>
    obtain ⟨_, rfl⟩ := DirectoryError.ending_eq_ok_iff.mp hr.symm
    exact ⟨nofun, fun he => absurd he e.message_ne_empty⟩
  | @unprobed e =>
    obtain ⟨_, _, rfl⟩ := ProbeError.ending_eq_ok_iff.mp hr.symm
    exact ⟨nofun, fun he => absurd he e.message_ne_empty⟩
  | converted => exact Start.success_iff_of_ending hr.symm

/-- **A process that could not be started or did not end with code 0 is told in the result.** -/
theorem failed_of_child (h : Performed mode executable rest outputs s r s')
    {started : List (List String)} (hs : s'.starts = s.starts ++ started)
    (hm : .child c ∈ started.mapIdx s.nth) (hc : ∀ text, c ≠ .ran text 0) : Failed r := by
  have idle : s'.starts = s.starts → Failed r := fun heq => by
    obtain rfl := List.append_cancel_left ((List.append_nil _).trans (heq.symm.trans hs))
    cases hm
  cases h with
  | dry => exact idle rfl
  | obstructed => exact idle rfl
  | @unprobed e h he unknown told =>
    obtain rfl := List.append_cancel_left hs
    have first : .child c = s.nth 0 (probeVector executable) := List.mem_singleton.mp hm
    rw [s.next_eq_nth, ← first] at told
    refine failed_ending_probe (fun silent => ?_) fun barred => ?_
    · cases Start.version_silent_iff.mp (silent ▸ told)
      exact hc "" rfl
    · cases Start.version_barred_iff.mp (barred ▸ told)
  | @converted v s₁ h he version =>
    obtain ⟨before, obtained, _, starts, next⟩ := version.before
    have next : s₁.next (executable :: rest) = s.nth before.length (executable :: rest) := next _
    have all : s.starts ++ (before ++ [executable :: rest]) = s.starts ++ started := by
      rw [← List.append_assoc, ← hs]
      exact congrArg (· ++ [executable :: rest]) starts.symm
    obtain rfl := List.append_cancel_left all
    rw [List.mapIdx_concat, List.mem_append] at hm
    rcases hm with earlier | last
    · -- an earlier process is the probe, and it told a version
      rcases obtained with ⟨rfl, _⟩ | ⟨rfl, _, told⟩
      · cases earlier
      · have first : .child c = s.nth 0 (probeVector executable) := List.mem_singleton.mp earlier
        obtain ⟨text, ht⟩ := Start.exists_of_version_ok told
        cases first.trans ht
        exact absurd rfl (hc text)
    · rw [next, ← List.mem_singleton.mp last]
      exact Start.failed_ending hc v

end Performed

end Commands

/-! ## 4. Runs -/

namespace Graph

/-- The run comes to its probe, which ends with code 0 and prints nothing. -/
def ProbedInSilence (g : Graph) (settings : Settings) (mode : RunMode) (streams : List Stream)
    (s : Session) : Prop :=
  ∃ args paths fs, g.compile settings streams = .ok args ∧ g.Writes streams paths ∧
    mode.dryRun = false ∧ s.files.Prepares (paths.map Path.ofString) fs ∧
    s.answer? (versionKey settings.executable) = none ∧
    s.nth 0 (probeVector settings.executable) = .child (.ran "" 0)

/-- The run comes to an output whose directory has a name with the character NUL. -/
def StoppedByNull (g : Graph) (settings : Settings) (mode : RunMode) (streams : List Stream)
    (s : Session) : Prop :=
  ∃ args paths pre o post fs, g.compile settings streams = .ok args ∧
    g.Writes streams paths ∧ mode.dryRun = false ∧
    paths.map Path.ofString = pre ++ o :: post ∧ s.files.Prepares pre fs ∧ o.parent.hasNull = true

/-- The run comes to its probe or to its conversion, and the host does not take the vector: on the
system one of its arguments holds the character NUL. -/
def StoppedByArgument (g : Graph) (settings : Settings) (mode : RunMode) (streams : List Stream)
    (s : Session) : Prop :=
  ∃ args paths fs, g.compile settings streams = .ok args ∧ g.Writes streams paths ∧
    mode.dryRun = false ∧ s.files.Prepares (paths.map Path.ofString) fs ∧
    s.Bars settings.executable args

variable {g : Graph} {settings : Settings} {mode : RunMode} {streams : List Stream}
  {s s' : Session} {r : Except RunFault RunResult}

/-- A run ends without a result exactly when its compilation stops at a stream without a name, or its
command ends without a result. -/
theorem Course.eq_error_iff (way : g.Course settings mode streams s r s') {f : RunFault} :
    r = .error f ↔ (∃ u, f = .unnamed u ∧ g.compile settings streams = .error (.unnamed u)) ∨
      ∃ args paths, g.compile settings streams = .ok args ∧ g.Writes streams paths ∧
        Stops mode settings.executable args (paths.map Path.ofString) s f := by
  cases way with
  | unnamed h => simp [h, eq_comm]
  | invalid h => simp [h]
  | @compiled rest paths _ _ h hp hc =>
    rw [hc.eq_error_iff]
    constructor
    · exact fun hs => .inr ⟨_, paths, h, outputPaths_eq_ok_iff.mp hp, hs.of_saying⟩
    · rintro (⟨u, _, hu⟩ | ⟨args, paths', hargs, hp', hs⟩)
      · exact absurd (h.symm.trans hu) nofun
      · cases h.symm.trans hargs
        cases hp.symm.trans (outputPaths_eq_ok_iff.mpr hp')
        exact hs.saying _

theorem Course.unnamed_iff (way : g.Course settings mode streams s r s') (u : Unnamed) :
    r = .error (.unnamed u) ↔ g.compile settings streams = .error (.unnamed u) := by
  rw [way.eq_error_iff]
  constructor
  · rintro (⟨_, heq, hu⟩ | ⟨_, _, _, _, hs⟩)
    · cases heq
      exact hu
    · cases hs
  · exact fun hu => .inl ⟨u, rfl, hu⟩

theorem Course.silentProbe_iff (way : g.Course settings mode streams s r s') :
    r = .error .silentProbe ↔ g.ProbedInSilence settings mode streams s := by
  simp [way.eq_error_iff, stops_silentProbe_iff, ProbedInSilence]

theorem Course.nullInPath_iff (way : g.Course settings mode streams s r s') :
    r = .error .nullInPath ↔ g.StoppedByNull settings mode streams s := by
  simp [way.eq_error_iff, stops_nullInPath_iff, StoppedByNull]

theorem Course.nullInArgument_iff (way : g.Course settings mode streams s r s') :
    r = .error .nullInArgument ↔ g.StoppedByArgument settings mode streams s := by
  simp [way.eq_error_iff, stops_nullInArgument_iff, StoppedByArgument]

theorem Course.success_iff {res : RunResult}
    (way : g.Course settings mode streams s (.ok res) s') :
    res.success = true ↔ res.error = "" := by
  cases way with
  | @invalid e h =>
    have text : "Invalid pipeline graph: " ++ e.message g ≠ "" := fun heq =>
      absurd (String.append_eq_empty_iff.mp heq).1 (by decide)
    exact ⟨nofun, fun he => absurd he text⟩
  | compiled h hp hc => exact hc.success_iff

theorem Course.failed_of_child (way : g.Course settings mode streams s r s')
    {started : List (List String)} (hs : s'.starts = s.starts ++ started) {c : Child}
    (hm : .child c ∈ started.mapIdx s.nth) (hc : ∀ text, c ≠ .ran text 0) : Failed r := by
  have idle : s'.starts = s.starts → Failed r := fun heq => by
    obtain rfl := List.append_cancel_left ((List.append_nil _).trans (heq.symm.trans hs))
    cases hm
  cases way with
  | unnamed => exact idle rfl
  | invalid => exact idle rfl
  | compiled h hp hperf => exact hperf.failed_of_child hs hm hc

/-- **What a run does not report.** A run ends without a result only for one of four reasons: its
compilation stops at a stream without a name; its probe ends with code 0 and prints nothing; the
directory of an output has a name with the character NUL; the host does not take the vector of its
probe or of its conversion. A result tells an error exactly when the run did not succeed, and a process
that could not be started or did not end with code 0 is told in the result. -/
theorem run_reports_failures (g : Graph) (settings : Settings) (mode : RunMode)
    (streams : List Stream) (s : Session) :
    (∀ u, ((g.run settings mode streams).on s).1 = .error (.unnamed u) ↔
      g.compile settings streams = .error (.unnamed u)) ∧
    (((g.run settings mode streams).on s).1 = .error .silentProbe ↔
      g.ProbedInSilence settings mode streams s) ∧
    (((g.run settings mode streams).on s).1 = .error .nullInPath ↔
      g.StoppedByNull settings mode streams s) ∧
    (((g.run settings mode streams).on s).1 = .error .nullInArgument ↔
      g.StoppedByArgument settings mode streams s) ∧
    ((∃ res, ((g.run settings mode streams).on s).1 = .ok res) ↔
      (∀ u, g.compile settings streams ≠ .error (.unnamed u)) ∧
      ¬ g.ProbedInSilence settings mode streams s ∧ ¬ g.StoppedByNull settings mode streams s ∧
      ¬ g.StoppedByArgument settings mode streams s) ∧
    (∀ res, ((g.run settings mode streams).on s).1 = .ok res →
      (res.success = true ↔ res.error = "")) ∧
    ∀ started c, ((g.run settings mode streams).on s).2.starts = s.starts ++ started →
      .child c ∈ started.mapIdx s.nth → (∀ text, c ≠ .ran text 0) →
      Failed ((g.run settings mode streams).on s).1 := by
  have way := g.course settings mode streams s
  generalize ((g.run settings mode streams).on s).1 = r at way ⊢
  generalize ((g.run settings mode streams).on s).2 = s' at way ⊢
  refine ⟨way.unnamed_iff, way.silentProbe_iff, way.nullInPath_iff, way.nullInArgument_iff, ?_,
    fun res hr => Course.success_iff (hr ▸ way),
    fun started c hs hm hc => way.failed_of_child hs hm hc⟩
  rw [← way.silentProbe_iff, ← way.nullInPath_iff, ← way.nullInArgument_iff]
  simp only [ne_eq, ← way.unnamed_iff]
  cases r with
  | ok res => exact ⟨fun _ => ⟨fun _ => nofun, nofun, nofun, nofun⟩, fun _ => ⟨res, rfl⟩⟩
  | error f =>
    refine ⟨nofun, fun ⟨named, spoken, clean, taken⟩ => ?_⟩
    cases f with
    | unnamed u => exact absurd rfl (named u)
    | silentProbe => exact absurd rfl spoken
    | nullInPath => exact absurd rfl clean
    | nullInArgument => exact absurd rfl taken

/-- A session of the system with nothing but its working directory, whose first process says
nothing. -/
def silentSession : Session :=
  ⟨.system, ⟨["work"], ["work"], [], [(["work"], .directory)]⟩, [], [.ran "" 0], [], []⟩

theorem prepares_silentSession :
    silentSession.files.Prepares [Path.ofString "out.mp4"] silentSession.files := by
  have directory : silentSession.files.stat (Path.ofString "out.mp4").parent =
      .ok .directory := rfl
  have name : (Path.ofString "out.mp4").parent.hasNull = false := rfl
  refine .cons (.there ?_ ?_) (.nil _)
  · rw [Files.present, name, directory]
    rfl
  · rw [Files.isDirectory, directory]

theorem crossed_outputPaths :
    crossed.outputPaths [crossed.stream 2 "" none] = .ok ["out.mp4"] := by
  have sinks : (crossed.sorted (crossed.terminals [crossed.stream 2 "" none])).map crossed.sinks =
      .ok [2] := by
    rw [crossed_eq]
    cbv
  unfold outputPaths
  cases hs : crossed.sorted (crossed.terminals [crossed.stream 2 "" none]) with
  | error e => rw [hs] at sinks; cases sinks
  | ok s =>
    rw [hs] at sinks
    have only : crossed.sinks s = [2] := Except.ok.inj sinks
    simp only [Except.map, only]
    rw [crossed_eq]
    rfl

/-- **A run does stop at its probe**: the graph has a command, the directory of the output is there,
and yet there is no result. -/
theorem silent_probe_escapes :
    crossed.compile .standard [crossed.stream 2 "" none] = .ok crossedVector ∧
    ((crossed.run .standard .standard [crossed.stream 2 "" none]).on silentSession).1 =
      .error .silentProbe := by
  refine ⟨crossed_compile, (crossed.course _ _ _ silentSession).silentProbe_iff.mpr ?_⟩
  exact ⟨_, _, _, crossed_compile, outputPaths_eq_ok_iff.mp crossed_outputPaths, rfl,
    prepares_silentSession, rfl, by decide⟩

end Graph

end FilterGraph
