import FilterGraph.Proofs.Stages
import FilterGraph.Proofs.WrittenPaths

/-!
# The processes that a run starts

A run starts at most two processes, the probe and then the conversion, and every way in which it can
stop early stops the sequence as well. A start that the host bars counts as one.

* `Session.child`, `Session.nth`: the processes and the starts to come, by number;
* `Protocol`: which processes a compiled command starts, when, and what the conversion has to do with
  the result; one lemma for each way in which it goes;
* **`Graph.run_protocol`**: every run keeps it, with the paths that its outputs write, and a graph
  without a command starts nothing.
-/

namespace FilterGraph

/-! ## 1. Processes to come -/

namespace Session

/-- The `k`-th process from here on. -/
def child (s : Session) (k : Nat) : Child := (s.children[k]?).getD default

/-- What comes of a start with the vector `argv` that has `k` processes before it. -/
def nth (s : Session) (k : Nat) (argv : List String) : Start :=
  if s.host.takes argv then .child (s.child k) else .barred

theorem next_eq_nth (s : Session) (argv : List String) : s.next argv = s.nth 0 argv := by
  unfold next nth child
  cases s.children <;> rfl

theorem nth_of_takes {s : Session} {argv : List String} (h : s.host.takes argv = true) (k : Nat) :
    s.nth k argv = .child (s.child k) := if_pos h

theorem nth_of_not_takes {s : Session} {argv : List String} (h : s.host.takes argv = false)
    (k : Nat) : s.nth k argv = .barred := if_neg (by simp [h])

theorem nth_eq_barred_iff {s : Session} {k : Nat} {argv : List String} :
    s.nth k argv = .barred ↔ s.host.takes argv = false := by
  refine ⟨fun barred => Bool.eq_false_of_not_eq_true fun ht => ?_, fun ht => nth_of_not_takes ht k⟩
  rw [nth_of_takes ht] at barred
  cases barred

/-- A process that was started is no longer to come. -/
theorem nth_ran {s : Session} {argv : List String} (h : s.host.takes argv = true)
    (es : List Event) (k : Nat) (argv' : List String) :
    (s.ran argv es).nth k argv' = s.nth (k + 1) argv' := by
  unfold nth child ran left
  rw [if_pos h, List.getElem?_tail]

end Session

/-- A version is in the cache, or the first process tells it. -/
def Session.Obtains (s : Session) (executable v : String) : Prop :=
  s.answer? (versionKey executable) = some v ∨
    s.answer? (versionKey executable) = none ∧
      (s.nth 0 (probeVector executable)).version executable = .ok v

/-- Where the version is not known and not told, there is none. -/
theorem Session.not_obtains {s : Session} {executable : String} {e : ProbeError}
    (unknown : s.answer? (versionKey executable) = none)
    (told : (s.nth 0 (probeVector executable)).version executable = .error e) (v : String) :
    ¬ s.Obtains executable v := by
  rintro (known | ⟨_, told'⟩)
  · exact absurd (known.symm.trans unknown) nofun
  · exact absurd (told'.symm.trans told) nofun

/-- A version is told only where the host takes the question. -/
theorem Session.takes_of_version {s : Session} {argv : List String} {k : Nat} {executable v : String}
    (h : (s.nth k argv).version executable = .ok v) : s.host.takes argv = true := by
  by_contra none
  rw [nth_of_not_takes (Bool.eq_false_of_not_eq_true none)] at h
  cases h

/-! ## 2. The protocol -/

/-- What a command with the vector `args` starts, from session `s` to session `s'`, and how that
shows in its result. -/
structure Protocol (mode : RunMode) (executable : String) (args : List String)
    (outputs : List Path) (s : Session) (r : Except RunFault RunResult) (s' : Session)
    (started : List (List String)) : Prop where
  /-- The probe comes first, the conversion last, and there is nothing else. -/
  order : started.Sublist [probeVector executable, args]
  /-- Nothing is started on a dry run or before every output has its directory. -/
  ready : started ≠ [] → mode.dryRun = false ∧ ∃ fs, s.files.Prepares outputs fs
  /-- The version is asked for exactly when it is needed and not known. -/
  probe : probeVector executable ∈ started ↔ mode.dryRun = false ∧
    (∃ fs, s.files.Prepares outputs fs) ∧ s.answer? (versionKey executable) = none
  /-- The conversion is come to exactly when every output has its directory and the version is
  obtained. -/
  reached : args ∈ started ↔ mode.dryRun = false ∧ (∃ fs, s.files.Prepares outputs fs) ∧
    ∃ v, s.Obtains executable v
  /-- Just before the conversion every directory is there and the version is obtained, which the
  result has; where the host does not take the conversion there is no result. -/
  conversion : args ∈ started → ∃ (s₁ : Session) (v : String) (events : List Event),
    s' = s₁.ran args events ∧
    (∀ o ∈ outputs, s₁.files.isDirectory o.parent = true) ∧ s.Obtains executable v ∧
    s₁.starts = s.starts ++ started.dropLast ∧
    (s.host.takes args = true → ∃ res, r = .ok res ∧ res.version = some v) ∧
    (s.host.takes args = false → r = .error .nullInArgument)
  /-- A run for real succeeds exactly when the conversion was started and ended with code 0. -/
  success : mode.dryRun = false → ((∃ res, r = .ok res ∧ res.success = true) ↔
    args ∈ started ∧ ∃ text, s.nth (started.length - 1) args = .child (.ran text 0))
  /-- The output of a run for real that succeeds is the text of the conversion. -/
  output : mode.dryRun = false → ∀ res, r = .ok res → res.success = true →
    ∃ text, s.nth (started.length - 1) args = .child (.ran text 0) ∧ res.output = some text
  /-- A dry run starts and creates nothing and says one thing, the command. -/
  dry : mode.dryRun = true → started = [] ∧ s'.files = s.files ∧
    r = .ok ⟨true, "", args, none, none⟩ ∧
    Event.messages s'.events = Event.messages s.events ++ ["Command: " ++ Shell.line args]

variable {mode : RunMode} {executable : String} {rest : List String} {outputs : List Path}
  {s s' : Session}

theorem messages_append (a b : List Event) :
    Event.messages (a ++ b) = Event.messages a ++ Event.messages b :=
  List.filterMap_append

/-- Status messages of what is said in addition. -/
theorem messages_saying (events : List Event) :
    Event.messages (s.saying events).events = Event.messages s.events ++ Event.messages events :=
  messages_append s.events events

theorem not_success_of_ending_directory {args : List String} {e : DirectoryError} {res : RunResult}
    (h : e.ending args = .ok res) : res.success ≠ true := by
  obtain ⟨_, rfl⟩ := DirectoryError.ending_eq_ok_iff.mp h
  exact Bool.false_ne_true

theorem not_success_of_ending_probe {args : List String} {e : ProbeError} {res : RunResult}
    (h : e.ending args = .ok res) : res.success ≠ true := by
  obtain ⟨_, _, rfl⟩ := ProbeError.ending_eq_ok_iff.mp h
  exact Bool.false_ne_true

namespace Start

variable {v : String} {t : Start} {res : RunResult}

/-- The ways in which a conversion ends: without a result for a vector that the host does not take,
and with the text of its process or with an error otherwise. -/
theorem ending_cases (executable : String) (rest : List String) (v : String) (t : Start) :
    t = .barred ∧ t.ending executable rest v = .error .nullInArgument ∨
    (∃ text, t = .child (.ran text 0) ∧ t.ending executable rest v =
      .ok ⟨true, "", executable :: rest, some text, some v⟩) ∨
    ∃ c message, t = .child c ∧ (∀ text, c ≠ .ran text 0) ∧ t.ending executable rest v =
      .ok ⟨false, failureText message, executable :: rest, none, some v⟩ := by
  rcases t with _ | number | ⟨output, code⟩
  · exact .inl ⟨rfl, rfl⟩
  · exact .inr (.inr ⟨_, _, rfl, nofun, rfl⟩)
  · by_cases hcode : code = 0
    · rw [hcode]
      exact .inr (.inl ⟨output, rfl, rfl⟩)
    · refine .inr (.inr ⟨_, ProcessError.message (.failed (executable :: rest) code), rfl, ?_, ?_⟩)
      · intro text heq
        cases heq
        exact hcode rfl
      · simp [ending, conversion, reply, hcode, Except.map]

/-- A conversion succeeds when its process ends with code 0, and has the text of the process. -/
theorem success_of_ending (h : t.ending executable rest v = .ok res) : res.success = true ↔
    ∃ text, t = .child (.ran text 0) ∧ res.output = some text := by
  rcases ending_cases executable rest v t with ⟨_, heq⟩ | ⟨text, ht, heq⟩ | ⟨c, m, ht, hc, heq⟩
  · cases h.symm.trans heq
  · cases h.symm.trans heq
    exact ⟨fun _ => ⟨text, ht, rfl⟩, fun _ => rfl⟩
  · cases h.symm.trans heq
    exact ⟨nofun, fun ⟨_, _, output⟩ => nomatch output⟩

theorem version_of_ending (h : t.ending executable rest v = .ok res) : res.version = some v := by
  unfold ending at h
  cases hc : t.conversion executable rest with
  | error f =>
    rw [hc] at h
    cases h
  | ok res =>
    rw [hc] at h
    cases h
    rfl

/-- A conversion that the host takes ends in a result, which has the version. -/
theorem exists_ending (executable : String) (rest : List String) (v : String) (c : Child) :
    ∃ res, (child c).ending executable rest v = .ok res ∧ res.version = some v := by
  obtain ⟨res, h⟩ : ∃ res, (child c).ending executable rest v = .ok res := by
    rcases ending_cases executable rest v (child c) with
      ⟨none, _⟩ | ⟨_, _, heq⟩ | ⟨_, _, _, _, heq⟩
    · cases none
    · exact ⟨_, heq⟩
    · exact ⟨_, heq⟩
  exact ⟨res, h, version_of_ending h⟩

end Start

/-- A conversion ends in a result, which has the version, where the host takes its vector, and
without one elsewhere. -/
theorem Session.ending_nth (s : Session) (k : Nat) (executable : String) (rest : List String)
    (v : String) :
    (s.host.takes (executable :: rest) = true → ∃ res,
      (s.nth k (executable :: rest)).ending executable rest v = .ok res ∧ res.version = some v) ∧
    (s.host.takes (executable :: rest) = false →
      (s.nth k (executable :: rest)).ending executable rest v = .error .nullInArgument) := by
  refine ⟨fun ht => ?_, fun ht => ?_⟩
  · rw [nth_of_takes ht]
    exact Start.exists_ending executable rest v _
  · rw [nth_of_not_takes ht]
    rfl

theorem protocol_dry {args : List String} (h : mode.dryRun = true) :
    Protocol mode executable args outputs s (.ok ⟨true, "", args, none, none⟩)
      (s.saying [.status ("Command: " ++ Shell.line args)]) [] where
  order := List.nil_sublist _
  ready := fun hne => absurd rfl hne
  probe := ⟨nofun, fun hp => by rw [h] at hp; cases hp.1⟩
  reached := ⟨nofun, fun hp => by rw [h] at hp; cases hp.1⟩
  conversion := nofun
  success := fun hd => by rw [h] at hd; cases hd
  output := fun hd => by rw [h] at hd; cases hd
  dry := fun _ => ⟨rfl, rfl, rfl, messages_saying _⟩

theorem protocol_obstructed {args : List String} {e : DirectoryError} (h : mode.dryRun = false)
    (he : (s.files.ensureAll outputs).error? = some e) :
    Protocol mode executable args outputs s (e.ending args)
      (s.found mode.verbosity (s.files.ensureAll outputs)) [] where
  order := List.nil_sublist _
  ready := fun hne => absurd rfl hne
  probe := ⟨nofun, fun ⟨_, ready, _⟩ => absurd ready (Files.not_prepares he)⟩
  reached := ⟨nofun, fun ⟨_, ready, _⟩ => absurd ready (Files.not_prepares he)⟩
  conversion := nofun
  success := fun _ => ⟨fun ⟨_, hr, hs⟩ => absurd hs (not_success_of_ending_directory hr),
    fun hm => nomatch hm.1⟩
  output := fun _ _ hr hs => absurd hs (not_success_of_ending_directory hr)
  dry := fun hd => by rw [h] at hd; cases hd

theorem protocol_unprobed {args : List String} {e : ProbeError} (h : mode.dryRun = false)
    (apart : args ≠ probeVector executable) (he : (s.files.ensureAll outputs).error? = none)
    (unknown : s.answer? (versionKey executable) = none)
    (told : (s.nth 0 (probeVector executable)).version executable = .error e)
    {events : List Event} :
    Protocol mode executable args outputs s (e.ending args)
      ((s.found mode.verbosity (s.files.ensureAll outputs)).ran (probeVector executable) events)
      [probeVector executable] where
  order := by simp
  ready := fun _ => ⟨h, _, Files.prepares_iff.mpr ⟨rfl, he⟩⟩
  probe := ⟨fun _ => ⟨h, ⟨_, Files.prepares_iff.mpr ⟨rfl, he⟩⟩, unknown⟩,
    fun _ => List.mem_singleton_self _⟩
  reached := ⟨fun hm => absurd (List.mem_singleton.mp hm) apart,
    fun ⟨_, _, v, obtains⟩ => absurd obtains (Session.not_obtains unknown told v)⟩
  conversion := fun hm => absurd (List.mem_singleton.mp hm) apart
  success := fun _ => ⟨fun ⟨_, hr, hs⟩ => absurd hs (not_success_of_ending_probe hr),
    fun hm => absurd (List.mem_singleton.mp hm.1) apart⟩
  output := fun _ _ hr hs => absurd hs (not_success_of_ending_probe hr)
  dry := fun hd => by rw [h] at hd; cases hd

/-- What was started to obtain a version: nothing, or the probe. The session afterwards has the same
files, and the next process is the first one not used. -/
theorem Versioned.before {v : String} {s₁ : Session} (version : Versioned executable s v s₁) :
    ∃ before, (before = [] ∧ s.answer? (versionKey executable) = some v ∨
      before = [probeVector executable] ∧ s.answer? (versionKey executable) = none ∧
        (s.nth 0 (probeVector executable)).version executable = .ok v) ∧
      s₁.files = s.files ∧ s₁.starts = s.starts ++ before ∧
      ∀ argv, s₁.next argv = s.nth before.length argv := by
  cases version with
  | known h => exact ⟨[], .inl ⟨rfl, h⟩, rfl, (List.append_nil _).symm, s.next_eq_nth⟩
  | probed unknown told =>
    rw [s.next_eq_nth] at told ⊢
    refine ⟨[probeVector executable], .inr ⟨rfl, unknown, told⟩, rfl, rfl, fun argv => ?_⟩
    exact (Session.next_eq_nth _ argv).trans
      (Session.nth_ran (Session.takes_of_version told) [] 0 argv)

theorem exists_protocol_converted {v : String} {s₁ : Session} (h : mode.dryRun = false)
    (apart : executable :: rest ≠ probeVector executable)
    (he : (s.files.ensureAll outputs).error? = none)
    (version : Versioned executable (s.found mode.verbosity (s.files.ensureAll outputs)) v s₁)
    (events : List Event) :
    ∃ started, (s₁.ran (executable :: rest) events).starts = s.starts ++ started ∧
      Protocol mode executable (executable :: rest) outputs s
        ((s₁.next (executable :: rest)).ending executable rest v)
        (s₁.ran (executable :: rest) events) started := by
  have prepares := Files.prepares_iff.mpr ⟨rfl, he⟩
  obtain ⟨before, obtained, files, starts, next⟩ := version.before
  have start : s₁.next (executable :: rest) =
      s.nth ((before ++ [executable :: rest]).length - 1) (executable :: rest) := by
    rw [List.length_append]
    exact next _
  have last : executable :: rest ∈ before ++ [executable :: rest] := by simp
  have obtains : s.Obtains executable v := obtained.imp And.right And.right
  refine ⟨before ++ [executable :: rest], ?_, ?_⟩
  · rw [← List.append_assoc]
    exact congrArg (· ++ [executable :: rest]) starts
  refine
    { order := ?order
      ready := fun _ => ⟨h, _, prepares⟩
      probe := ?probe
      reached := ⟨fun _ => ⟨h, ⟨_, prepares⟩, v, obtains⟩, fun _ => last⟩
      conversion := fun _ => ⟨s₁, v, events, rfl, fun o ho => ?_, obtains, ?_, ?_⟩
      success := fun _ => ?success
      output := fun _ res hr hs => ?output
      dry := fun hd => by rw [h] at hd; cases hd }
  case order => rcases obtained with ⟨rfl, _⟩ | ⟨rfl, _⟩ <;> simp
  case probe =>
    rcases obtained with ⟨rfl, known⟩ | ⟨rfl, unknown, _⟩
    · refine ⟨fun hm => absurd (List.mem_singleton.mp hm).symm apart, fun ⟨_, _, unknown⟩ => ?_⟩
      exact absurd (known.symm.trans unknown) nofun
    · exact ⟨fun _ => ⟨h, ⟨_, prepares⟩, unknown⟩, fun _ => List.mem_cons_self⟩
  case success =>
    rw [← start]
    refine ⟨fun ⟨res, hr, hs⟩ => ⟨last, ?_⟩, fun ⟨_, text, ht⟩ => ?_⟩
    · obtain ⟨text, ht, _⟩ := (Start.success_of_ending hr).mp hs
      exact ⟨text, ht⟩
    · rw [ht]
      exact ⟨_, rfl, rfl⟩
  case output =>
    rw [← start]
    exact (Start.success_of_ending hr).mp hs
  · rw [files]
    exact prepares.directories o ho
  · rw [List.dropLast_concat]
    exact starts
  · rw [start]
    exact s.ending_nth _ executable rest v

/-- **A compiled command keeps the protocol.** -/
theorem exists_protocol (apart : executable :: rest ≠ probeVector executable)
    {r : Except RunFault RunResult} (h : Performed mode executable rest outputs s r s') :
    ∃ started, s'.starts = s.starts ++ started ∧
      Protocol mode executable (executable :: rest) outputs s r s' started := by
  cases h with
  | dry h => exact ⟨[], (List.append_nil _).symm, protocol_dry h⟩
  | obstructed h he => exact ⟨[], (List.append_nil _).symm, protocol_obstructed h he⟩
  | unprobed h he unknown told =>
    rw [s.next_eq_nth] at told
    exact ⟨_, rfl, protocol_unprobed h apart he unknown told⟩
  | converted h he version => exact exists_protocol_converted h apart he version _

/-- What was said before, without a status message, makes no difference. -/
theorem Protocol.of_saying {args : List String} {r : Except RunFault RunResult}
    {started : List (List String)} {events : List Event}
    (h : Protocol mode executable args outputs (s.saying events) r s' started)
    (silent : Event.messages events = []) :
    Protocol mode executable args outputs s r s' started := by
  refine ⟨h.order, h.ready, h.probe, h.reached, h.conversion, h.success, h.output, fun hd => ?_⟩
  obtain ⟨none, files, result, messages⟩ := h.dry hd
  rw [messages_saying, silent, List.append_nil] at messages
  exact ⟨none, files, result, messages⟩

/-! ## 3. Runs -/

namespace Graph

variable {g : Graph} {settings : Settings} {streams : List Stream}

/-- A command is never the vector that asks for the version. -/
theorem vector_ne_probe {args : List String} (h : g.compile settings streams = .ok args) :
    args ≠ probeVector settings.executable := by
  obtain ⟨c, _, rfl⟩ := compile_eq_ok_iff.mp h
  exact fun heq => absurd (List.cons.inj (List.cons.inj heq).2).1 (by decide)

/-- What is said about a compilation is no status. -/
theorem messages_compileReport : Event.messages (g.compileReport settings streams) = [] := by
  unfold compileReport Event.messages
  rw [List.filterMap_map]
  exact List.filterMap_eq_nil_iff.mpr fun _ _ => rfl

/-- **The protocol of a run.** A graph that has no command starts nothing, and its run does not succeed;
a graph that has one keeps the protocol of its command, for the paths that its outputs write. -/
theorem run_protocol (g : Graph) (settings : Settings) (mode : RunMode) (streams : List Stream)
    (s : Session) : ∃ started,
      ((g.run settings mode streams).on s).2.starts = s.starts ++ started ∧
      (∀ e, g.compile settings streams = .error e → started = [] ∧
        ((g.run settings mode streams).on s).2.files = s.files ∧
        ∀ res, ((g.run settings mode streams).on s).1 = .ok res → res.success = false) ∧
      ∀ args, g.compile settings streams = .ok args → ∃ paths, g.Writes streams paths ∧
        Protocol mode settings.executable args (paths.map Path.ofString) s
          ((g.run settings mode streams).on s).1 ((g.run settings mode streams).on s).2 started := by
  have way := g.course settings mode streams s
  generalize ((g.run settings mode streams).on s).1 = r at way ⊢
  generalize ((g.run settings mode streams).on s).2 = s' at way ⊢
  cases way with
  | unnamed h =>
    refine ⟨[], (List.append_nil _).symm, fun _ _ => ⟨rfl, rfl, nofun⟩, fun args hargs => ?_⟩
    rw [h] at hargs
    cases hargs
  | invalid h =>
    refine ⟨[], (List.append_nil _).symm, fun _ _ => ⟨rfl, rfl, fun res hr => ?_⟩,
      fun args hargs => ?_⟩
    · cases hr
      rfl
    · rw [h] at hargs
      cases hargs
  | compiled h hp hc =>
    obtain ⟨started, starts, protocol⟩ := exists_protocol (vector_ne_probe h) hc
    refine ⟨started, starts, fun e he => ?_, fun args hargs => ?_⟩
    · rw [h] at he
      cases he
    · rw [h] at hargs
      cases hargs
      exact ⟨_, outputPaths_eq_ok_iff.mp hp, protocol.of_saying messages_compileReport⟩

end Graph

end FilterGraph
