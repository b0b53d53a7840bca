import FilterGraph.Proofs.Denotation
import FilterGraph.Proofs.Inverse

/-!
# How the two ends of a link spell it

The filter that makes a link declares it as a name in brackets. The node that takes the link writes
the name in brackets too, with the suffix of the component in between when it narrows the stream.
Link labels are compared as texts, so the two ends meet only when the stream is taken whole.

* `Graph.Declares`: the pad that a statement declares for an output of its filter;
* `Graph.Spelled`: what a reference to an output of a filter looks like beside this pad;
* `Compiled.spelled`: every such reference is spelled so;
* **`links_are_spelled_alike_iff`**: all rows of a compilation, in the filter graph and in the maps;
* `narrowed_link_is_undeclared`: a filter that takes the video of another filter's output refers to
  a label that nothing declares.
-/

namespace FilterGraph

/-! ## 1. Texts in brackets -/

theorem selectorSuffix_eq_empty_iff {selector : Option Selector} :
    selectorSuffix selector = "" ↔ selector = none := by
  cases selector with
  | none => simp [selectorSuffix]
  | some k => cases k <;> simp [selectorSuffix, Selector.letter]

theorem colon_mem_selectorSuffix (k : Selector) : ':' ∈ (selectorSuffix (some k)).toList := by
  simp [selectorSuffix]

/-- A name with the suffix of a component is not the name alone. -/
theorem bracketed_suffix_eq_iff {name : String} {selector : Option Selector} :
    bracketed (name ++ selectorSuffix selector) = bracketed name ↔ selector = none := by
  rw [bracketed_inj, String.append_eq_left_iff, selectorSuffix_eq_empty_iff]

/-- A name with the suffix of a component is not the name of an output. -/
theorem bracketed_suffix_ne_outputName (name : String) (k : Selector) (m : Nat) :
    bracketed (name ++ selectorSuffix (some k)) ≠ bracketed (StreamNames.outputName m) := by
  intro heq
  refine plain_outputName m ?_
  rw [← bracketed_inj.mp heq, String.toList_append]
  exact List.mem_append_right _ (colon_mem_selectorSuffix k)

/-- What stands in brackets is not the reference that goes without a map. -/
theorem bracketed_ne_implied (name : String) : bracketed name ≠ impliedReference := by
  intro heq
  have chars := congrArg String.toList heq
  simp [bracketed, impliedReference] at chars

namespace Graph

variable {g : Graph} {ts : List NodeId} {s : Sorted} {T : List Hop} {names : StreamNames}
  {c : Command}

/-! ## 2. The two ends -/

/-- The statement of the filter that an output belongs to declares a pad for this output: the pad
stands where the label stands among the outgoing edges of the filter. -/
structure Declares (g : Graph) (s : Sorted) (c : Command) (u : Supply) (pad : String) : Prop where
  place : ∃ (p q : Nat) (t : NodeId) (x : Label × Consumer) (st : Statement),
    (g.transforms s)[p]? = some t ∧ g.hash t = g.hash u.node ∧ c.statements[p]? = some st ∧
      (g.outgoingEdges s t)[q]? = some x ∧ x.1 = u.label ∧ st.pads[q]? = some pad

/-- The number of a node is that of a sorted node of another kind. -/
def Mistaken (g : Graph) (s : Sorted) (i : NodeId) : Prop :=
  ∃ j ∈ s.nodes, g.hash j = g.hash i ∧ (g.node j).kind ≠ (g.node i).kind

/-- A reference to an output of a filter beside the pad of this output: the pad is the name in
brackets, the reference has the suffix of the component behind the name. So they are one text
exactly when the stream is taken whole; otherwise the reference is no pad of any statement. -/
structure Spelled (g : Graph) (s : Sorted) (c : Command) (u : Supply) (r : Reference) : Prop where
  declared : ∀ pad, g.Declares s c u pad ↔ pad = bracketed r.name
  text : r.text = bracketed (r.name ++ selectorSuffix u.selector)
  alike : r.text = bracketed r.name ↔ u.selector = none
  undeclared : u.selector ≠ none → r.text ∉ c.pads

/-- The pad of an output that has a name is this name in brackets, provided that the filter of the
output is sorted and an edge takes the output. -/
theorem Compiled.declares_iff (h : g.Compiled ts s T names c) {i t : NodeId} (hi : i ∈ s.nodes)
    {e : Incoming} (he : e ∈ g.incoming i) (ht : t ∈ g.transforms s)
    (hash : g.hash t = g.hash e.supply.node) {name : String}
    (hname : names.name? (g.hash e.supply.node) e.supply.label = some name) {pad : String} :
    g.Declares s c e.supply pad ↔ pad = bracketed name := by
  constructor
  · rintro ⟨p, q, t', x, st, hp, hash', hst, hq, label, hpad⟩
    obtain ⟨st', hst', statement⟩ := exists_getElem?_of_forall₂ h.statements hp
    obtain rfl := Option.some_inj.mp (hst.symm.trans hst')
    obtain ⟨pad', hpad', hok⟩ :=
      exists_getElem?_of_forall₂ (statement_eq_ok_iff.mp statement).2.2 hq
    obtain ⟨name', hname', rfl⟩ := pad_eq_ok_iff.mp hok
    rw [hash', label, hname, Option.some_inj] at hname'
    rw [hpad, Option.some_inj] at hpad'
    rw [hpad', hname']
  · rintro rfl
    obtain ⟨p, hp⟩ := List.mem_iff_getElem?.mp ht
    obtain ⟨q, x, hq, label⟩ := h.traversed.exists_outgoingEdge hi he hash
    rw [← hash, ← label] at hname
    obtain ⟨st, hst, hpad⟩ := h.pad_iff.mpr ⟨t, x, hp, hq, hname⟩
    exact ⟨p, q, t, x, st, hp, hash, hst, hq, label, hpad⟩

/-- A reference to an output of a filter stands in brackets, also behind a map. -/
theorem text_of_transform {final : Bool} {e : Incoming} {r : Reference}
    (hr : g.reference names final e = .ok r) (hk : (g.node e.supply.node).kind = .transform) :
    r.text = bracketed (r.name ++ selectorSuffix e.supply.selector) := by
  rw [text_of_reference hr, if_neg (by simp [hk])]

/-- **A reference to an output of a filter is spelled like the pad of the output, but for the suffix
of the component**, unless the filter is mistaken for a node of another kind. -/
theorem Compiled.spelled (h : g.Compiled ts s T names c) {i : NodeId} (hi : i ∈ s.nodes)
    {e : Incoming} (he : e ∈ g.incoming i) (hk : (g.node e.supply.node).kind = .transform)
    {final : Bool} {r : Reference} (hr : g.reference names final e = .ok r) :
    g.Mistaken s e.supply.node ∨ g.Spelled s c e.supply r := by
  have hop := h.traversed.mem_iff.mpr ⟨hi, he⟩
  obtain ⟨t, ht, hash⟩ := List.mem_map.mp (h.traversed.supplier_mem hop)
  by_cases hkind : (g.node t).kind = .transform
  · have text := text_of_transform hr hk
    refine .inr ⟨fun pad => ?_, text, ?_, fun narrowed => ?_⟩
    · exact h.declares_iff hi he (mem_ofKind.mpr ⟨ht, hkind⟩) hash (name?_of_reference hr)
    · rw [text]
      exact bracketed_suffix_eq_iff
    · obtain ⟨k, hsel⟩ := Option.ne_none_iff_exists'.mp narrowed
      rw [text, hsel, h.pads_eq]
      intro hmem
      obtain ⟨m, _, heq⟩ := List.mem_map.mp hmem
      exact bracketed_suffix_ne_outputName r.name k m heq.symm
  · exact .inl ⟨t, ht, hash, hk ▸ hkind⟩

/-! ## 3. The rows of a compilation -/

variable {settings : Settings} {streams : List Stream}

/-- The edge of a row comes from a filter: then its reference is spelled like the pad up to the
suffix, unless the filter is mistaken. -/
def SpelledRow (g : Graph) (s : Sorted) (c : Command) (e : Incoming) (r : Reference) : Prop :=
  (g.node e.supply.node).kind = .transform →
    g.Mistaken s e.supply.node ∨ g.Spelled s c e.supply r

theorem Compiled.spelledRow (h : g.Compiled ts s T names c) {i : NodeId} (hi : i ∈ s.nodes)
    {final : Bool} {rs : List Reference}
    (hrs : List.Forall₂ (fun e r => g.reference names final e = .ok r) (g.incoming i) rs) :
    List.Forall₂ (g.SpelledRow s c) (g.incoming i) rs :=
  forall₂_imp_mem hrs fun _ he _ hr hk => h.spelled hi he hk hr

/-- References to outputs of filters are never left without a map. -/
theorem mapped_of_transform {i : NodeId} {f : OutputFragment}
    (hf : g.outputFragment names i = .ok f) :
    List.Forall₂ (fun e r => (g.node e.supply.node).kind = .transform → r ∈ f.mapped)
      (g.incoming i) f.references := by
  have rows := (outputFragment_eq_ok_iff.mp hf).1
  refine (forall₂_and_mem rows).imp fun e r ⟨⟨_, hmem⟩, hr⟩ hk => ?_
  refine List.mem_filter.mpr ⟨hmem, decide_eq_true (.inl ?_)⟩
  rw [text_of_transform hr hk]
  exact bracketed_ne_implied _

/-- **The two ends of a link are spelled alike exactly when the consumer takes the whole stream.**
In a compiled graph every reference to an output of a filter, in the filter graph or in a map, is
the pad that the statement of this filter declares for the output, if the edge carries no component;
if it does, the component stands in the reference only, and nothing declares a label of this text. A
filter is known by its number, so a node of another kind with the same number takes its place. -/
theorem links_are_spelled_alike_iff {args : List String}
    (h : g.compile settings streams = .ok args) :
    ∃ (s : Sorted) (c : Command), g.sort (g.terminals streams) = .ok s ∧
      g.command (g.terminals streams) = .ok c ∧ args = c.arguments settings ∧
      List.Forall₂ (fun i st => List.Forall₂ (g.SpelledRow s c) (g.incoming i) st.inputs)
        (g.transforms s) c.statements ∧
      List.Forall₂ (fun i f => List.Forall₂ (g.SpelledRow s c) (g.incoming i) f.references ∧
          List.Forall₂ (fun e r => (g.node e.supply.node).kind = .transform → r ∈ f.mapped)
            (g.incoming i) f.references ∧
          f.maps = f.mapped.flatMap fun r => ["-map", r.text])
        (g.sinks s) c.outputs := by
  obtain ⟨c, hcom, rfl⟩ := compile_eq_ok_iff.mp h
  obtain ⟨s, T, names, hcomp⟩ := exists_compiled hcom
  refine ⟨s, c, hcomp.traversed.sort, hcom, rfl, ?_, ?_⟩
  · refine forall₂_imp_mem hcomp.statements fun i hi st hst => ?_
    exact hcomp.spelledRow (mem_ofKind.mp hi).1 (statement_eq_ok_iff.mp hst).1
  · refine forall₂_imp_mem hcomp.outputs fun i hi f hf => ?_
    exact ⟨hcomp.spelledRow (mem_ofKind.mp hi).1 (outputFragment_eq_ok_iff.mp hf).1,
      mapped_of_transform hf, f.maps_eq⟩

/-- The join of the sample takes both outputs of the split whole. -/
theorem links_are_spelled_alike_iff_sample :
    sample.compile .standard sampleStreams = .ok sampleVector ∧
    ∃ (s : Sorted) (c : Command), sample.sort (sample.terminals sampleStreams) = .ok s ∧
      sampleVector = c.arguments .standard ∧
      List.Forall₂ (fun i st => List.Forall₂ (sample.SpelledRow s c) (sample.incoming i) st.inputs)
        (sample.transforms s) c.statements := by
  obtain ⟨s, c, hsort, _, heq, rows, _⟩ := links_are_spelled_alike_iff sample_compile
  exact ⟨sample_compile, s, c, hsort, heq, rows⟩

/-! ## 4. A narrowed link -/

/-- A split whose second output is narrowed to its video and flipped, and whose first output is
written with its audio only. -/
def narrowing : Graph :=
  let (g, s) := Graph.empty.source (some "in.mp4") (.options [])
  let (g, m) := g.filterMulti (.one s) "split" (.options [])
  let (g, f) := g.filter (.one (g.stream m.node "1" (some .video))) "hflip" (.options [])
  (g.output (.many [f, g.stream m.node "0" (some .audio)]) (some "out.mp4") (.options [])).1

theorem number_narrowing_flip : Identity.node Digest.ofJson .transform "hflip" (.options []) none
    [⟨"", 0x6c3db155c69b35fe, "1", some .video⟩] = 0xf66645da29f95ec6 := by
  unfold Identity.node Identity.Term.number Digest.ofJson
  simp only [List.map_cons, List.map_nil, List.foldr_cons, List.foldr_nil]
  conv => lhs; arg 1; arg 1; cbv
  conv => lhs; arg 2; arg 1; arg 1; cbv
  decide +kernel

theorem number_narrowing_sink : Identity.node Digest.ofJson .sink "output" (.options [])
    (some "out.mp4") [⟨"0", 0xf66645da29f95ec6, "", none⟩,
      ⟨"1", 0x6c3db155c69b35fe, "0", some .audio⟩] = 0xe217b6ef6e628ea6 := by
  unfold Identity.node Identity.Term.number Digest.ofJson
  simp only [List.map_cons, List.map_nil, List.foldr_cons, List.foldr_nil]
  conv => lhs; arg 1; arg 1; cbv
  conv => lhs; arg 2; arg 1; arg 1; cbv
  conv => lhs; arg 2; arg 2; arg 1; arg 1; cbv
  decide +kernel

/-- The graph with the numbers that its nodes have. -/
theorem narrowing_eq : narrowing = ⟨#[
    ⟨.source, "input", .options [], some "in.mp4", [], [], 0x04a838841dc2246b⟩,
    ⟨.transform, "split", .options [], none, [⟨"", ⟨0, "", none⟩⟩], [], 0x6c3db155c69b35fe⟩,
    ⟨.transform, "hflip", .options [], none, [⟨"", ⟨1, "1", some .video⟩⟩], [],
      0xf66645da29f95ec6⟩,
    ⟨.sink, "output", .options [], some "out.mp4",
      [⟨"0", ⟨2, "", none⟩⟩, ⟨"1", ⟨1, "0", some .audio⟩⟩], [], 0xe217b6ef6e628ea6⟩]⟩ := by
  have added : narrowing = ((((Graph.empty.add
      .source "input" (.options []) (some "in.mp4") []).1.add
      .transform "split" (.options []) none [⟨"", ⟨0, "", none⟩⟩]).1.add
      .transform "hflip" (.options []) none [⟨"", ⟨1, "1", some .video⟩⟩]).1.add
      .sink "output" (.options []) (some "out.mp4")
      [⟨"0", ⟨2, "", none⟩⟩, ⟨"1", ⟨1, "0", some .audio⟩⟩]).1 := rfl
  rw [added, add_of_number number_crossed_source rfl, add_of_number number_crossed_split,
    add_of_number number_narrowing_flip, add_of_number number_narrowing_sink] <;> rfl

/-- The reference of the flip to the output that it takes. -/
def narrowingReference : Reference := ⟨"s0", some .video, false⟩

/-- The command of the narrowed graph. -/
def narrowingCommand : Command := ⟨[⟨.options [], some "in.mp4"⟩],
  [⟨[⟨"0", none, false⟩], "split", ["[s0]", "[s1]"]⟩, ⟨[narrowingReference], "hflip", ["[s2]"]⟩],
  [⟨[⟨"s2", none, false⟩, ⟨"s1", some .audio, false⟩], .options [], some "out.mp4"⟩]⟩

/-- Its arguments. -/
def narrowingVector : List String := ["ffmpeg", "-hide_banner", "-i", "in.mp4", "-filter_complex",
  "[0]split[s0][s1];[s0:v]hflip[s2]", "-map", "[s2]", "-map", "[s1:a]", "out.mp4", "-y"]

theorem narrowing_command :
    narrowing.command (narrowing.terminals [narrowing.stream 3 "" none]) =
      .ok narrowingCommand := by
  rw [narrowing_eq]
  cbv

/-- **The ends of a narrowed link are spelled differently**: the flip refers to `[s0:v]`, while the
split declares `[s0]` for the output that it takes and no statement declares `[s0:v]`. -/
theorem narrowed_link_is_undeclared :
    narrowing.compile .standard [narrowing.stream 3 "" none] = .ok narrowingVector ∧
    ∃ s, narrowing.sort (narrowing.terminals [narrowing.stream 3 "" none]) = .ok s ∧
      narrowing.command (narrowing.terminals [narrowing.stream 3 "" none]) = .ok narrowingCommand ∧
      narrowing.incoming 2 = [⟨"", ⟨1, "1", some .video⟩⟩] ∧
      (narrowing.node 1).kind = .transform ∧
      narrowingCommand.statements[1]?.map (·.inputs) = some [narrowingReference] ∧
      (∀ pad, narrowing.Declares s narrowingCommand ⟨1, "1", some .video⟩ pad ↔ pad = "[s0]") ∧
      narrowingReference.text = "[s0:v]" ∧ "[s0:v]" ∉ narrowingCommand.pads := by
  have sorted : ((narrowing.sort (narrowing.terminals [narrowing.stream 3 "" none])).map fun s =>
      s.nodes) = .ok [0, 1, 2, 3] := by
    rw [narrowing_eq]
    cbv
  obtain ⟨s, T, names, hcomp⟩ := exists_compiled narrowing_command
  rw [hcomp.traversed.sort] at sorted
  have nodes : s.nodes = [0, 1, 2, 3] := Except.ok.inj sorted
  have filters : narrowing.transforms s = [1, 2] := by
    unfold transforms ofKind
    rw [nodes, narrowing_eq]
    rfl
  have incoming : narrowing.incoming 2 = [⟨"", ⟨1, "1", some .video⟩⟩] := by
    rw [narrowing_eq]
    rfl
  have kind : (narrowing.node 1).kind = .transform := by
    rw [narrowing_eq]
    rfl
  have alone : ¬ narrowing.Mistaken s 1 := by
    unfold Mistaken
    rw [nodes, narrowing_eq]
    decide
  obtain ⟨st, hst, statement⟩ :=
    exists_getElem?_of_forall₂ (filters ▸ hcomp.statements) (j := 1) (a := 2) rfl
  cases hst
  have row := (statement_eq_ok_iff.mp statement).1
  rw [incoming] at row
  cases row with
  | cons href _ =>
    have mem : (2 : NodeId) ∈ s.nodes := nodes ▸ by decide
    have edge : (⟨"", ⟨1, "1", some .video⟩⟩ : Incoming) ∈ narrowing.incoming 2 :=
      incoming ▸ List.mem_singleton_self _
    have spelled := (hcomp.spelled mem edge kind href).resolve_left alone
    exact ⟨compile_eq_ok_iff.mpr ⟨_, narrowing_command, rfl⟩, s, hcomp.traversed.sort,
      narrowing_command, incoming, kind, rfl, spelled.declared, rfl,
      spelled.undeclared (Option.some_ne_none _)⟩

end Graph

end FilterGraph
