import FilterGraph.Proofs.Deeds

/-!
# What the version cache holds

Calls that share one cache, empty at first. The history of the starts that they made settles what is
in the cache: for each executable what the first probe told that told anything.

* `Start.told?`: what a start tells about a version; `firstTold`: the first that was told about an
  executable in a row of starts;
* `Call`, `History`: a run with what it finds, and the calls so far;
* `Session.Does.firstTold_starts`, `Deed.find?_cache`: what one deed tells, and what it leaves in the
  cache;
* `History.sound_of`: the cache holds what was told first, by induction over the calls;
* `Call.Served`: what the next call does about its version;
* **`version_cache`**: all of it, after any calls; what a call comes to depends on the earlier calls
  with its own executable only.
-/

namespace FilterGraph

/-! ## 1. What is told -/

/-- What a start tells about a version: the first line that the process prints, unless there is no
process or it fails or prints nothing. -/
def Start.told? : Start → Option String
  | .barred | .child (.refused _) => none
  | .child (.ran output code) =>
    if code = 0 then (Text.firstLine? output).map Text.strip else none

theorem Start.told?_ran (output : String) :
    (Start.child (.ran output 0)).told? = (Text.firstLine? output).map Text.strip := rfl

theorem Start.told?_of_failed {output : String} {code : Int} (h : code ≠ 0) :
    (Start.child (.ran output code)).told? = none := if_neg h

/-- A start tells something when its process ends with code 0 and prints something. -/
theorem Start.told?_eq_some_iff {t : Start} {v : String} : t.told? = some v ↔
    ∃ output, t = .child (.ran output 0) ∧ output ≠ "" ∧
      v = Text.strip (.ofList (output.toList.takeWhile (! Text.endsLine ·))) := by
  constructor
  · intro h
    rcases t with _ | _ | ⟨output, code⟩
    · cases h
    · cases h
    · by_cases hcode : code = 0
      · rw [hcode, told?_ran, Text.firstLine?] at h
        refine ⟨output, by rw [hcode], ?_⟩
        by_cases hout : output = "" <;> simp_all
      · rw [told?_of_failed hcode] at h
        cases h
  · rintro ⟨output, rfl, hout, rfl⟩
    simp [told?_ran, Text.firstLine?, hout]

/-- A version is obtained exactly when it is told. -/
theorem Start.version_eq_ok_iff {executable v : String} {t : Start} :
    t.version executable = .ok v ↔ t.told? = some v := by
  rcases t with _ | _ | ⟨output, code⟩
  · simp [version, reply, told?]
  · simp [version, reply, told?]
  · by_cases hcode : code = 0
    · rw [hcode, told?_ran, version, reply, if_pos rfl]
      cases h : Text.firstLine? output <;> simp [h]
    · rw [told?_of_failed hcode, version, reply, if_neg hcode]
      simp

/-- A line that is told has no carriage return, so it comes back from the cache as it is. -/
theorem Start.return_not_mem_told {t : Start} {v : String} (h : t.told? = some v) :
    '\r' ∉ v.toList := by
  obtain ⟨output, _, _, rfl⟩ := told?_eq_some_iff.mp h
  intro hm
  have inLine : '\r' ∈ output.toList.takeWhile (! Text.endsLine ·) := by
    simp only [Text.strip, Text.stripChars, Text.stripLeft, String.toList_ofList] at hm
    have first := (List.dropWhile_sublist _).subset (List.mem_reverse.mp hm)
    exact (List.dropWhile_sublist _).subset (List.mem_reverse.mp first)
  exact absurd (List.mem_takeWhile_imp inLine) (by decide)

/-- The first that was told about an executable. -/
def firstTold (executable : String) (starts : List (List String × Start)) : Option String :=
  starts.findSome? fun p => if p.1 = probeVector executable then p.2.told? else none

theorem firstTold_nil (executable : String) : firstTold executable [] = none := rfl

theorem firstTold_append (executable : String) (a b : List (List String × Start)) :
    firstTold executable (a ++ b) = (firstTold executable a).or (firstTold executable b) :=
  List.findSome?_append

theorem firstTold_eq_none_iff {executable : String} {ps : List (List String × Start)} :
    firstTold executable ps = none ↔
      ∀ p ∈ ps, p.1 = probeVector executable → p.2.told? = none := by
  simp [firstTold, List.findSome?_eq_none_iff]

theorem return_not_mem_firstTold {executable v : String} {ps : List (List String × Start)}
    (h : firstTold executable ps = some v) : '\r' ∉ v.toList := by
  obtain ⟨p, _, hp⟩ := List.exists_of_findSome?_eq_some h
  split at hp
  · exact Start.return_not_mem_told hp
  · cases hp

theorem versionKey_inj {a b : String} : versionKey a = versionKey b ↔ a = b :=
  String.append_right_inj _

theorem probeVector_inj {a b : String} : probeVector a = probeVector b ↔ a = b := by
  simp [probeVector]

/-! ## 2. Deeds -/

section

variable {s : Session} {dryRun : Bool} {executable other : String} {rest : List String}
  {outputs : List Path} {d : Deed}

/-- The version of the executable, if the deed comes to the conversion. -/
def Deed.version? : Deed → Option String
  | converted _ _ v _ => some v
  | _ => none

/-- A result has the version of its deed. -/
theorem Deed.version_eq {res : RunResult} (h : d.outcome executable rest = .ok res) :
    res.version = d.version? := by
  cases d with
  | announced =>
    cases h
    rfl
  | obstructed found e =>
    obtain ⟨_, rfl⟩ := DirectoryError.ending_eq_ok_iff.mp h
    rfl
  | unprobed found probe e =>
    obtain ⟨_, _, rfl⟩ := ProbeError.ending_eq_ok_iff.mp h
    rfl
  | converted found probe v t => exact Start.version_of_ending h

namespace Session.Does

/-- A deed with a version ends in a result that has it, where the host takes the conversion. -/
theorem outcome_of_version (h : s.Does dryRun executable rest outputs d) {v : String}
    (hv : d.version? = some v) :
    (s.host.takes (executable :: rest) = true →
      ∃ res, d.outcome executable rest = .ok res ∧ res.version = some v) ∧
    (s.host.takes (executable :: rest) = false →
      d.outcome executable rest = .error .nullInArgument) := by
  cases h with
  | known =>
    cases hv
    exact s.ending_nth 0 executable rest v
  | probed =>
    cases hv
    exact s.ending_nth 1 executable rest v
  | _ => cases hv

/-- The starts of a deed go as the session has it. -/
theorem mapIdx_nth (h : s.Does dryRun executable rest outputs d) :
    ((d.starts executable rest).map (·.1)).mapIdx (fun k argv => (argv, s.nth k argv)) =
      d.starts executable rest := by
  cases h <;> rfl

/-- What a deed learns is what its starts tell. -/
theorem firstTold_starts (h : s.Does dryRun executable rest outputs d)
    (apart : executable :: rest ≠ probeVector executable) :
    firstTold executable (d.starts executable rest) = d.learnt := by
  cases h with
  | dry => rfl
  | obstructed => rfl
  | known => simp [firstTold, Deed.starts, Deed.learnt, apart]
  | unprobed _ _ _ told =>
    have silent : (s.nth 0 (probeVector executable)).told? = none := by
      refine Option.eq_none_iff_forall_ne_some.mpr fun v hv => ?_
      rw [Start.version_eq_ok_iff.mpr hv] at told
      cases told
    simp [firstTold, Deed.starts, Deed.learnt, silent]
  | probed _ _ _ told =>
    simp [firstTold, Deed.starts, Deed.learnt, Start.version_eq_ok_iff.mp told]

/-- About another executable nothing is asked. -/
theorem eq_of_probe_mem (h : s.Does dryRun executable rest outputs d)
    (apart : executable :: rest ≠ probeVector executable)
    (hm : probeVector other ∈ (d.starts executable rest).map (·.1)) : other = executable := by
  have command : ∀ {a}, probeVector a ≠ executable :: rest := by
    intro a ha
    have same : a = executable := (List.cons.inj ha).1
    exact apart (same ▸ ha.symm)
  cases h with
  | dry => cases hm
  | obstructed => cases hm
  | known => exact absurd (List.mem_singleton.mp hm) command
  | unprobed => exact probeVector_inj.mp (List.mem_singleton.mp hm)
  | probed =>
    rcases List.mem_cons.mp hm with first | hm
    · exact probeVector_inj.mp first
    · exact absurd (List.mem_singleton.mp hm) command

/-- The executable is asked exactly when its version is needed and not known. -/
theorem probe_mem_iff (h : s.Does dryRun executable rest outputs d)
    (apart : executable :: rest ≠ probeVector executable) :
    probeVector executable ∈ (d.starts executable rest).map (·.1) ↔
      (dryRun = false ∧ ∃ fs, s.files.Prepares outputs fs) ∧
        s.answer? (versionKey executable) = none := by
  rw [Files.exists_prepares_iff]
  cases h with
  | dry h => simp [Deed.starts, h]
  | obstructed h he => simp [Deed.starts, he]
  | known h he known => simp [Deed.starts, known, apart.symm]
  | unprobed h he unknown => simp [Deed.starts, h, he, unknown]
  | probed h he unknown => simp [Deed.starts, h, he, unknown]

/-- No probe comes after another. -/
theorem pairwise_starts (h : s.Does dryRun executable rest outputs d)
    (apart : executable :: rest ≠ probeVector executable) :
    (d.starts executable rest).Pairwise fun _ q => q.1 ≠ probeVector executable := by
  cases h with
  | probed => simp [Deed.starts, apart]
  | _ => simp [Deed.starts]

/-- Only what is not known is learnt. -/
theorem unknown_of_learnt (h : s.Does dryRun executable rest outputs d) {v : String}
    (hv : d.learnt = some v) : s.answer? (versionKey executable) = none := by
  cases h with
  | probed _ _ unknown => exact unknown
  | _ => cases hv

/-- A deed has a version exactly when the conversion is started. -/
theorem command_mem_iff (h : s.Does dryRun executable rest outputs d)
    (apart : executable :: rest ≠ probeVector executable) :
    executable :: rest ∈ (d.starts executable rest).map (·.1) ↔ ∃ v, d.version? = some v := by
  cases h with
  | unprobed => simpa [Deed.starts, Deed.version?] using apart
  | _ => simp [Deed.starts, Deed.version?]

/-- The version of a deed was known, or is learnt. -/
theorem known_or_learnt (h : s.Does dryRun executable rest outputs d) {v : String}
    (hv : d.version? = some v) :
    s.answer? (versionKey executable) = some v ∧ d.learnt = none ∨ d.learnt = some v := by
  cases h with
  | known _ _ known =>
    cases hv
    exact .inl ⟨known, rfl⟩
  | probed =>
    cases hv
    exact .inr rfl
  | _ => cases hv

end Session.Does

/-- What is in the cache after a deed: what it learnt, else what was there. -/
theorem Deed.find?_cache (d : Deed) (executable other : String) (before : List (String × Json)) :
    Entries.find? (versionKey other) (d.cache executable before) =
      (if other = executable then d.learnt.map Json.string else none).or
        (Entries.find? (versionKey other) before) := by
  unfold cache
  cases d.learnt with
  | none =>
    show Entries.find? _ before = _
    split <;> rfl
  | some v =>
    show Entries.find? _ (Entries.set _ _ before) = _
    rw [Entries.find?_set]
    by_cases h : other = executable
    · rw [if_pos (congrArg versionKey h), if_pos h]
      rfl
    · rw [if_neg fun heq => h (versionKey_inj.mp heq), if_neg h]
      rfl

end

/-! ## 3. Calls -/

/-- A run, with its host, the files that it finds and the behaviour of the processes that it
starts. -/
structure Call where
  graph : Graph
  settings : Settings
  mode : RunMode
  streams : List Stream
  host : Host
  files : Files
  children : List Child

namespace Call

/-- The executable that the call is about. -/
abbrev executable (c : Call) : String := c.settings.executable

/-- The session that the call begins with. -/
def session (c : Call) (cache : List (String × Json)) : Session :=
  ⟨c.host, c.files, cache, c.children, [], []⟩

/-- What the call comes to. -/
def performed (c : Call) (cache : List (String × Json)) : Except RunFault RunResult × Session :=
  (c.graph.run c.settings c.mode c.streams).on (c.session cache)

/-- The starts that the call makes, with what comes of each. -/
def starts (c : Call) (cache : List (String × Json)) : List (List String × Start) :=
  (c.performed cache).2.starts.mapIdx fun k argv => (argv, (c.session cache).nth k argv)

/-- The call needs the version: it is for real, it has a command, and every output gets its directory. -/
def NeedsVersion (c : Call) : Prop :=
  ∃ args paths, c.graph.compile c.settings c.streams = .ok args ∧
    c.graph.Writes c.streams paths ∧ c.mode.dryRun = false ∧
    ∃ fs, c.files.Prepares (paths.map Path.ofString) fs

/-- The call attempts its conversion, with the vector `args`. -/
def Attempts (c : Call) (cache : List (String × Json)) (args : List String) : Prop :=
  c.graph.compile c.settings c.streams = .ok args ∧ args ∈ (c.starts cache).map (·.1)

/-- How a call goes: without a command nothing happens, with one its deed is done. -/
inductive Goes (c : Call) (cache : List (String × Json)) : Prop where
  | rejected (e : CompileError) (h : c.graph.compile c.settings c.streams = .error e)
      (outcome : (c.performed cache).1 = e.ending c.graph) (starts : c.starts cache = [])
      (kept : (c.performed cache).2.cache = cache)
  | compiled (rest paths : List String) (d : Deed)
      (h : c.graph.compile c.settings c.streams = .ok (c.executable :: rest))
      (hp : c.graph.outputPaths c.streams = .ok paths)
      (does : (c.session cache).Does c.mode.dryRun c.executable rest
        (paths.map Path.ofString) d)
      (outcome : (c.performed cache).1 = d.outcome c.executable rest)
      (starts : c.starts cache = d.starts c.executable rest)
      (kept : (c.performed cache).2.cache = d.cache c.executable cache)

theorem goes (c : Call) (cache : List (String × Json)) : c.Goes cache := by
  rcases c.graph.compile_cases c.settings c.streams with ⟨e, h⟩ | ⟨rest, paths, h, hp⟩
  · have performed : c.performed cache = _ := Graph.on_run_of_error h
    refine .rejected e h (by rw [performed]) ?_ (by rw [performed]; rfl)
    unfold starts
    rw [performed]
    rfl
  · have performed : c.performed cache = _ := Graph.on_run_of_ok h hp
    have does := (c.session cache).does c.mode.dryRun c.executable rest
      (paths.map Path.ofString)
    refine .compiled rest paths _ h hp does (by rw [performed]) ?_ (by rw [performed]; rfl)
    unfold starts
    rw [performed]
    exact does.mapIdx_nth

/-- What a call comes to depends on the cache through the version of its own executable. -/
theorem performed_congr (c : Call) (cache cache' : List (String × Json))
    (h : (c.session cache').answer? (versionKey c.executable) =
      (c.session cache).answer? (versionKey c.executable)) :
    (c.performed cache').1 = (c.performed cache).1 ∧ c.starts cache' = c.starts cache := by
  rcases c.graph.compile_cases c.settings c.streams with ⟨e, he⟩ | ⟨rest, paths, hc, hp⟩
  · have performed : ∀ cache, c.performed cache = _ := fun _ => Graph.on_run_of_error he
    unfold starts
    rw [performed, performed]
    exact ⟨rfl, rfl⟩
  · have performed : ∀ cache, c.performed cache = _ := fun _ => Graph.on_run_of_ok hc hp
    have deed : (c.session cache').deed c.mode.dryRun c.executable rest
          (paths.map Path.ofString) =
        (c.session cache).deed c.mode.dryRun c.executable rest (paths.map Path.ofString) := by
      refine deed_congr ?host ?files ?children h c.mode.dryRun
      case host => rfl
      case files => rfl
      case children => rfl
    unfold starts
    rw [performed, performed, deed]
    exact ⟨rfl, rfl⟩

end Call

/-! ## 4. Histories -/

/-- What calls have left: the cache, and the starts that they made. -/
structure History where
  cache : List (String × Json)
  starts : List (List String × Start)

namespace History

/-- Nothing was called. -/
def empty : History := ⟨[], []⟩

/-- The history with one call more. -/
def call (h : History) (c : Call) : History :=
  ⟨(c.performed h.cache).2.cache, h.starts ++ c.starts h.cache⟩

/-- The history of some calls, one after the other. -/
def of (calls : List Call) : History := calls.foldl call empty

theorem of_snoc (calls : List Call) (c : Call) : of (calls ++ [c]) = (of calls).call c := by
  simp [of]

/-- What the cache holds for an executable. -/
def held (h : History) (executable : String) : Option Json :=
  Entries.find? (versionKey executable) h.cache

/-- The first that was told about an executable. -/
def firstTold (h : History) (executable : String) : Option String :=
  FilterGraph.firstTold executable h.starts

/-- The cache holds what was told first. -/
def Sound (h : History) : Prop := ∀ executable, h.held executable = (h.firstTold executable).map .string

variable {h : History}

/-- In a sound history the version that a call finds is the first that was told. -/
theorem Sound.answer? (sound : h.Sound) (c : Call) :
    (c.session h.cache).answer? (versionKey c.executable) = h.firstTold c.executable := by
  have held : Entries.find? (versionKey c.executable) h.cache = _ := sound c.executable
  unfold Session.answer? Call.session
  rw [held]
  cases first : h.firstTold c.executable with
  | none => rfl
  | some v =>
    have kept : Text.unifyNewlines v = v :=
      Text.unifyNewlines_eq_of_not_mem (return_not_mem_firstTold first)
    show some (if _ then Text.unifyNewlines v else v) = some v
    rw [kept, ite_self]

/-- A call leaves what the cache holds for other executables. -/
theorem held_call_of_ne (h : History) (c : Call) {executable : String}
    (hne : executable ≠ c.executable) : (h.call c).held executable = h.held executable := by
  unfold held call
  cases c.goes h.cache with
  | rejected e _ _ _ kept => rw [kept]
  | compiled rest paths d _ _ _ _ _ kept =>
    rw [kept, Deed.find?_cache, if_neg hne]
    rfl

/-- **A call keeps the history sound**: what it learns was not known before. -/
theorem Sound.call (sound : h.Sound) (c : Call) : (h.call c).Sound := by
  intro executable
  unfold History.held History.firstTold History.call
  rw [firstTold_append]
  cases c.goes h.cache with
  | rejected e _ _ starts kept =>
    rw [kept, starts, FilterGraph.firstTold_nil, Option.or_none]
    exact sound executable
  | compiled rest paths d hc _ does _ starts kept =>
    have apart := Graph.vector_ne_probe hc
    rw [kept, starts, Deed.find?_cache]
    by_cases hex : executable = c.executable
    · rw [hex, if_pos rfl, does.firstTold_starts apart]
      have before : Entries.find? (versionKey c.executable) h.cache =
        (FilterGraph.firstTold c.executable h.starts).map .string := sound c.executable
      cases hv : d.learnt with
      | none => rw [before, Option.or_none]; rfl
      | some v =>
        have unknown : FilterGraph.firstTold c.executable h.starts = none :=
          (sound.answer? c).symm.trans (does.unknown_of_learnt hv)
        rw [unknown]
        rfl
    · have silent : FilterGraph.firstTold executable (d.starts c.executable rest) = none :=
        firstTold_eq_none_iff.mpr fun p hp heq =>
          absurd (does.eq_of_probe_mem apart (heq ▸ List.mem_map_of_mem hp)) hex
      rw [if_neg hex, silent, Option.or_none]
      exact sound executable

/-- **The cache of every history is sound.** -/
theorem sound_of (calls : List Call) : (of calls).Sound := by
  induction calls using List.reverseRecOn with
  | nil => exact fun _ => rfl
  | append_singleton calls c ih =>
    rw [of_snoc]
    exact ih.call c

/-- An earlier call changes nothing for a later one with another executable. -/
theorem firstTold_of_filter (calls : List Call) (executable : String) :
    (of (calls.filter (·.executable = executable))).firstTold executable =
      (of calls).firstTold executable := by
  induction calls using List.reverseRecOn with
  | nil => rfl
  | append_singleton calls c ih =>
    rw [List.filter_append, of_snoc]
    by_cases hex : c.executable = executable
    · have same := c.performed_congr (of calls).cache
        (of (calls.filter (·.executable = executable))).cache
        (by rw [(sound_of _).answer?, (sound_of _).answer?, hex, ih])
      rw [List.filter_cons_of_pos (by simpa using hex), List.filter_nil, of_snoc, firstTold,
        firstTold, call, call, firstTold_append, firstTold_append, same.2]
      exact congrArg (Option.or · _) ih
    · rw [List.filter_cons_of_neg (by simpa using hex), List.filter_nil, List.append_nil, ih]
      have held := held_call_of_ne (of calls) c (Ne.symm hex)
      rw [((sound_of calls).call c), sound_of] at held
      exact (Option.map_injective (fun _ _ => Json.string.inj) held).symm

end History

/-! ## 5. The next call -/

/-- How a call after a history deals with the version of its executable. -/
structure Call.Served (c : Call) (h : History) : Prop where
  /-- A probe is started exactly when the version is needed and no probe told it yet. -/
  probe : probeVector c.executable ∈ (c.starts h.cache).map (·.1) ↔
    c.NeedsVersion ∧ h.firstTold c.executable = none
  /-- No other executable is asked. -/
  own : ∀ executable, probeVector executable ∈ (c.starts h.cache).map (·.1) →
    executable = c.executable
  /-- Where nothing is told the cache stays as it is. -/
  unchanged : firstTold c.executable (c.starts h.cache) = none → (h.call c).cache = h.cache
  /-- What is held for other executables stays. -/
  others : ∀ executable, executable ≠ c.executable → (h.call c).held executable = h.held executable
  /-- An attempted conversion ends in a result with the version that the cache then holds, and in no
  result where the host does not take it. -/
  attempted : ∀ args, c.Attempts h.cache args →
    ∃ v, (h.call c).held c.executable = some (.string v) ∧
      (c.host.takes args = true →
        ∃ res, (c.performed h.cache).1 = .ok res ∧ res.version = some v) ∧
      (c.host.takes args = false → (c.performed h.cache).1 = .error .nullInArgument)
  /-- Without an attempt a result has no version. -/
  spared : (∀ args, ¬ c.Attempts h.cache args) →
    ∀ res, (c.performed h.cache).1 = .ok res → res.version = none

namespace Call

variable {h : History} (c : Call)

/-- A call without a command starts nothing and has no version. -/
theorem served_of_rejected {e : CompileError}
    (he : c.graph.compile c.settings c.streams = .error e)
    (outcome : (c.performed h.cache).1 = e.ending c.graph) (starts : c.starts h.cache = [])
    (kept : (c.performed h.cache).2.cache = h.cache) : c.Served h where
  probe := by
    rw [starts]
    exact ⟨nofun, fun ⟨⟨_, _, hc, _⟩, _⟩ => absurd (he.symm.trans hc) nofun⟩
  own := by
    rw [starts]
    exact nofun
  unchanged := fun _ => kept
  others := fun _ => h.held_call_of_ne c
  attempted := fun _ ⟨hc, _⟩ => absurd (he.symm.trans hc) nofun
  spared := by
    intro _ res hres
    rw [outcome] at hres
    cases e with
    | graph e =>
      cases hres
      rfl
    | unnamed u => cases hres

variable {rest paths : List String} {d : Deed}

/-- The cache afterwards holds the version of the deed. -/
theorem held_of_version (sound : h.Sound)
    (does : (c.session h.cache).Does c.mode.dryRun c.executable rest
      (paths.map Path.ofString) d)
    (kept : (c.performed h.cache).2.cache = d.cache c.executable h.cache) {v : String}
    (hv : d.version? = some v) : (h.call c).held c.executable = some (.string v) := by
  unfold History.held History.call
  rw [kept, Deed.find?_cache, if_pos rfl]
  rcases does.known_or_learnt hv with ⟨known, nothing⟩ | learnt
  · have told : h.firstTold c.executable = some v := (sound.answer? c).symm.trans known
    have held : Entries.find? (versionKey c.executable) h.cache = _ := sound c.executable
    rw [nothing, held, told]
    rfl
  · rw [learnt]
    rfl

/-- A call with a command does its deed about the version. -/
theorem served_of_compiled (sound : h.Sound)
    (hc : c.graph.compile c.settings c.streams = .ok (c.executable :: rest))
    (hp : c.graph.outputPaths c.streams = .ok paths)
    (does : (c.session h.cache).Does c.mode.dryRun c.executable rest
      (paths.map Path.ofString) d)
    (outcome : (c.performed h.cache).1 = d.outcome c.executable rest)
    (starts : c.starts h.cache = d.starts c.executable rest)
    (kept : (c.performed h.cache).2.cache = d.cache c.executable h.cache) : c.Served h := by
  have apart := Graph.vector_ne_probe hc
  have attempts : ∀ args, c.Attempts h.cache args ↔
      args = c.executable :: rest ∧ ∃ v, d.version? = some v := by
    intro args
    rw [← does.command_mem_iff apart, ← starts]
    constructor
    · rintro ⟨hargs, hm⟩
      cases hc.symm.trans hargs
      exact ⟨rfl, hm⟩
    · rintro ⟨rfl, hm⟩
      exact ⟨hc, hm⟩
  have needs : c.NeedsVersion ↔ c.mode.dryRun = false ∧
      ∃ fs, (c.session h.cache).files.Prepares (paths.map Path.ofString) fs := by
    constructor
    · rintro ⟨args, paths', _, hp', hn⟩
      cases hp.symm.trans (Graph.outputPaths_eq_ok_iff.mpr hp')
      exact hn
    · exact fun hn => ⟨_, _, hc, Graph.outputPaths_eq_ok_iff.mp hp, hn⟩
  exact {
    probe := by rw [starts, does.probe_mem_iff apart, needs, sound.answer?]
    own := by
      rw [starts]
      exact fun _ => does.eq_of_probe_mem apart
    unchanged := by
      rw [starts, does.firstTold_starts apart]
      intro nothing
      unfold History.call
      rw [kept, Deed.cache, nothing]
    others := fun _ => h.held_call_of_ne c
    attempted := by
      intro args attempted
      obtain ⟨rfl, v, hv⟩ := (attempts args).mp attempted
      rw [outcome]
      exact ⟨v, c.held_of_version sound does kept hv, does.outcome_of_version hv⟩
    spared := by
      rw [outcome]
      intro none res hres
      rw [Deed.version_eq hres]
      exact Option.eq_none_iff_forall_ne_some.mpr fun v hv =>
        none _ ((attempts _).mpr ⟨rfl, v, hv⟩) }

theorem served (sound : h.Sound) : c.Served h := by
  cases c.goes h.cache with
  | rejected e he outcome starts kept => exact c.served_of_rejected he outcome starts kept
  | compiled rest paths d hc hp does outcome starts kept =>
    exact c.served_of_compiled sound hc hp does outcome starts kept

end Call

/-! ## 6. All histories -/

/-- Of two probes of one executable the earlier told nothing. -/
def Retried (p q : List String × Start) : Prop :=
  ∀ executable, p.1 = probeVector executable → q.1 = probeVector executable → p.2.told? = none

/-- The starts of one call hold no second probe. -/
theorem Call.pairwise_retried (c : Call) (cache : List (String × Json)) :
    (c.starts cache).Pairwise Retried := by
  cases c.goes cache with
  | rejected e _ _ starts _ =>
    rw [starts]
    exact .nil
  | compiled rest paths d hc _ does _ starts _ =>
    have apart := Graph.vector_ne_probe hc
    rw [starts]
    refine (does.pairwise_starts apart).imp_of_mem fun {p q} _ hq second executable _ heq => ?_
    have started : probeVector executable ∈ (d.starts c.executable rest).map (·.1) :=
      heq ▸ List.mem_map_of_mem hq
    have own := does.eq_of_probe_mem apart started
    exact absurd (own ▸ heq) second

/-- After a probe that told something there is no further one. -/
theorem History.pairwise_retried (calls : List Call) :
    (History.of calls).starts.Pairwise Retried := by
  induction calls using List.reverseRecOn with
  | nil => exact .nil
  | append_singleton calls c ih =>
    have served := c.served (sound_of calls)
    rw [of_snoc, call, List.pairwise_append]
    refine ⟨ih, c.pairwise_retried _, fun p hp q hq executable first second => ?_⟩
    have started : probeVector executable ∈ (c.starts (of calls).cache).map (·.1) :=
      second ▸ List.mem_map_of_mem hq
    have own := served.own executable started
    rw [own] at started first
    exact firstTold_eq_none_iff.mp (served.probe.mp started).2 p hp first

/-- **The version cache.** After any calls it holds for each executable what the first probe told that
told anything; after such a probe there is no other; the next call asks when it has to and has the
version of the cache; and what it comes to depends on the calls with its own executable only. -/
theorem version_cache (calls : List Call) :
    (∀ executable, (History.of calls).held executable =
      ((History.of calls).firstTold executable).map .string) ∧
    (History.of calls).starts.Pairwise Retried ∧
    ∀ c : Call, c.Served (History.of calls) ∧
      (c.performed (History.of calls).cache).1 = (c.performed
        (History.of (calls.filter (·.executable = c.executable))).cache).1 ∧
      c.starts (History.of calls).cache = c.starts
        (History.of (calls.filter (·.executable = c.executable))).cache := by
  refine ⟨History.sound_of calls, History.pairwise_retried calls, fun c => ?_⟩
  refine ⟨c.served (History.sound_of calls), c.performed_congr _ _ ?_⟩
  rw [(History.sound_of _).answer?, (History.sound_of _).answer?, History.firstTold_of_filter]

end FilterGraph
