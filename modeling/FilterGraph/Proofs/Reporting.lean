import FilterGraph.Proofs.Deeds

/-!
# Verbosity only adds messages

Two runs from one session that differ in their verbosity do the same deed, so they differ in what they
say only; and what the quieter one tells is what the louder one tells first.

* `Start.messages_reports`: streaming is the only difference between the two ways to run a process;
* `Deed.messages_report_quiet`, `Deed.messages_report_output`: what each level adds to the one below;
* `Agree`: two runs come to the same;
* **`Graph.verbosity_only_adds_messages`**: runs of any two levels agree, and the messages of the lower
  level are a prefix of those of the higher.
-/

namespace FilterGraph

/-! ## 1. Messages of a process -/

/-- The messages that a process gives while it runs, when its output is reported. -/
def Start.progress : Start → List String
  | .barred | .child (.refused _) => []
  | .child (.ran output _) => Progress.messages output

theorem messages_map_status {α : Type} (f : α → String) (l : List α) :
    Event.messages (l.map fun a => .status (f a)) = l.map f := by
  unfold Event.messages
  rw [List.filterMap_map]
  exact congrFun List.filterMap_eq_map l

/-- A process gives its messages if they are asked for, however it ends. -/
theorem Start.messages_reports (how : Reporting) (executable : String) (t : Start) :
    Event.messages (t.reports how executable) = if how.streaming then t.progress else [] := by
  rcases t with _ | _ | ⟨output, code⟩
  case child.ran =>
    have ending : ∀ quiet : Prop, ∀ _ : Decidable quiet,
        Event.messages (if quiet then [.debug (executable ++ " exited with 0")] else []) = [] := by
      intro quiet _
      split <;> rfl
    unfold Start.reports
    rw [messages_append, ending, List.append_nil]
    cases how.streaming with
    | false => rfl
    | true => exact (messages_map_status id _).trans (List.map_id _)
  all_goals cases how.streaming <;> rfl

/-- A probe gives no messages. -/
theorem messages_probe_reports (executable : String) (probe : Option Start) :
    Event.messages (probe.toList.flatMap (·.reports .none executable)) = [] := by
  cases probe with
  | none => rfl
  | some t =>
    rw [Option.toList_some, List.flatMap_cons, List.flatMap_nil, List.append_nil,
      Start.messages_reports]
    rfl

/-! ## 2. Levels -/

namespace Deed

/-- The messages that the conversion gives while it runs. -/
def progress : Deed → List String
  | converted _ _ _ t => t.progress
  | _ => []

variable (dryRun : Bool) (executable : String) (rest : List String) (d : Deed)

/-- At the lowest level only a dry run says something. -/
theorem messages_report_quiet (h : d ≠ .announced) :
    Event.messages (d.report ⟨.quiet, dryRun⟩ executable rest) = [] := by
  cases d with
  | announced => exact absurd rfl h
  | obstructed found e => rfl
  | unprobed found probe e =>
    rw [report, messages_append, Start.messages_reports]
    rfl
  | converted found probe v t =>
    rw [report, messages_append, messages_append, messages_append, messages_probe_reports,
      Start.messages_reports]
    rfl

/-- The highest level adds the messages of the conversion, after all others. -/
theorem messages_report_output :
    Event.messages (d.report ⟨.output, dryRun⟩ executable rest) =
      Event.messages (d.report ⟨.commands, dryRun⟩ executable rest) ++ d.progress := by
  cases d with
  | announced => exact (List.append_nil _).symm
  | obstructed found e => exact (List.append_nil _).symm
  | unprobed found probe e => exact (List.append_nil _).symm
  | converted found probe v t =>
    -- all that comes before the conversion's own messages is the same at both levels
    obtain ⟨lead, commands, output⟩ : ∃ lead : List Event,
        (converted found probe v t).report ⟨.commands, dryRun⟩ executable rest =
          lead ++ t.reports ⟨false, true⟩ executable ∧
        (converted found probe v t).report ⟨.output, dryRun⟩ executable rest =
          lead ++ t.reports ⟨true, true⟩ executable :=
      ⟨_, (List.append_assoc ..).symm, (List.append_assoc ..).symm⟩
    have silent : Event.messages (t.reports ⟨false, true⟩ executable) = [] := t.messages_reports ..
    have streamed : Event.messages (t.reports ⟨true, true⟩ executable) = t.progress :=
      t.messages_reports ..
    rw [commands, output, messages_append, messages_append, silent, streamed, List.append_nil,
      progress]

/-- **A lower level gives a prefix of the messages of a higher one.** -/
theorem messages_report_prefix {v v' : Verbosity} (h : v.level ≤ v'.level) :
    Event.messages (d.report ⟨v, dryRun⟩ executable rest) <+:
      Event.messages (d.report ⟨v', dryRun⟩ executable rest) := by
  have fromQuiet : ∀ w, Event.messages (d.report ⟨.quiet, dryRun⟩ executable rest) <+:
      Event.messages (d.report ⟨w, dryRun⟩ executable rest) := by
    intro w
    by_cases hd : d = .announced
    · rw [hd]
      exact List.prefix_refl _
    · rw [messages_report_quiet dryRun executable rest d hd]
      exact List.nil_prefix
  cases v with
  | quiet => exact fromQuiet v'
  | commands =>
    cases v' with
    | quiet => exact absurd h (by decide)
    | commands => exact List.prefix_refl _
    | output =>
      rw [messages_report_output]
      exact List.prefix_append _ _
  | output =>
    cases v' with
    | output => exact List.prefix_refl _
    | _ => exact absurd h (by decide)

end Deed

/-! ## 3. Runs -/

/-- Two runs come to the same: they end alike, leave the same host, files and cache, and have made
the same starts, with the same behaviours left. -/
structure Agree (a b : Except RunFault RunResult × Session) : Prop where
  outcome : a.1 = b.1
  host : a.2.host = b.2.host
  files : a.2.files = b.2.files
  cache : a.2.cache = b.2.cache
  children : a.2.children = b.2.children
  starts : a.2.starts = b.2.starts

/-- **Verbosity only adds messages.** Runs that differ in their verbosity agree, and the messages of a
run are a prefix of those of a run at a higher level. -/
theorem Graph.verbosity_only_adds_messages (g : Graph) (settings : Settings) (dryRun : Bool)
    (streams : List Stream) (s : Session) (v v' : Verbosity) :
    Agree ((g.run settings ⟨v, dryRun⟩ streams).on s) ((g.run settings ⟨v', dryRun⟩ streams).on s) ∧
    ∃ said said', ((g.run settings ⟨v, dryRun⟩ streams).on s).2.events = s.events ++ said ∧
      ((g.run settings ⟨v', dryRun⟩ streams).on s).2.events = s.events ++ said' ∧
      (v.level ≤ v'.level → Event.messages said <+: Event.messages said') := by
  rcases g.compile_cases settings streams with ⟨e, he⟩ | ⟨rest, paths, h, hp⟩
  · rw [on_run_of_error he, on_run_of_error he]
    exact ⟨⟨rfl, rfl, rfl, rfl, rfl, rfl⟩, _, _, rfl, rfl, fun _ => List.prefix_refl _⟩
  · rw [on_run_of_ok h hp, on_run_of_ok h hp]
    refine ⟨⟨rfl, rfl, rfl, rfl, rfl, rfl⟩, g.compileReport settings streams ++ _,
      g.compileReport settings streams ++ _, List.append_assoc _ _ _, List.append_assoc _ _ _,
      fun hv => ?_⟩
    rw [messages_append, messages_append]
    exact (List.prefix_append_right_inj _).mpr (Deed.messages_report_prefix _ _ _ _ hv)

end FilterGraph
