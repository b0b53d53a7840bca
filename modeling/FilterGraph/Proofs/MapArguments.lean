import FilterGraph.Proofs.ReferenceText

/-!
# What the maps of an output say

An output is written with a map for each stream that it takes, except that the whole first input
goes without when nothing else is taken. So an output without maps takes the whole first input, or
it takes nothing at all; otherwise the maps say what is taken.

* `OutputFragment.maps_eq_iff`: when two outputs have the same maps;
* `OutputFragment.Unmapped`: the one pair of outputs that differ and are both written without maps;
* **`maps_determine_references`**: among the outputs of a command that were built from streams the
  maps determine the references;
* `unmapped_outputs_look_alike`: an output built from no stream is written like one that takes the
  first input.
-/

namespace FilterGraph

/-! ## 1. Maps and references -/

/-- The reference of a map to the whole first input. -/
def Reference.firstInput : Reference := ⟨StreamNames.sourceName 0, none, true⟩

/-- A row of maps gives back what is mapped. -/
theorem flatMap_map_inj {as bs : List String} :
    (as.flatMap fun t => ["-map", t]) = (bs.flatMap fun t => ["-map", t]) ↔ as = bs := by
  induction as generalizing bs with
  | nil => cases bs <;> simp
  | cons a as ih =>
    cases bs with
    | nil => simp
    | cons b bs => simp [ih]

/-- One output takes nothing, the other the whole first input and nothing else. -/
structure OutputFragment.Unmapped (f f' : OutputFragment) : Prop where
  nothing : f.references = []
  first : f'.references = [.firstInput]

namespace OutputFragment

variable {f f' : OutputFragment}

/-- Only a row of the whole first input is left out. -/
theorem maps_eq_of_isName (h : ∀ r ∈ f.references, IsName r.name) :
    f.maps = if f.references = [.firstInput] then []
      else (f.references.map Reference.text).flatMap fun t => ["-map", t] := by
  have first : ∀ r ∈ [Reference.firstInput], IsName r.name := by
    intro r hr
    rw [List.mem_singleton.mp hr]
    exact .source 0
  have implied : f.references.map Reference.text = [impliedReference] ↔
      f.references = [.firstInput] := Reference.map_text_inj h first
  rw [maps_eq_ite, List.flatMap_map]
  simp only [implied]

/-- **Outputs have the same maps when they have the same references**, and otherwise only when one
takes nothing and the other the whole first input. -/
theorem maps_eq_iff (h : ∀ r ∈ f.references, IsName r.name)
    (h' : ∀ r ∈ f'.references, IsName r.name) :
    f.maps = f'.maps ↔
      f.references = f'.references ∨ Unmapped f f' ∨ Unmapped f' f := by
  constructor
  · intro heq
    rw [maps_eq_of_isName h, maps_eq_of_isName h'] at heq
    by_cases first : f.references = [.firstInput] <;>
      by_cases first' : f'.references = [.firstInput]
    · exact .inl (first.trans first'.symm)
    · rw [if_pos first, if_neg first'] at heq
      have row : [] = f'.references.map Reference.text := flatMap_map_inj.mp heq
      exact .inr (.inr ⟨List.map_eq_nil_iff.mp row.symm, first⟩)
    · rw [if_neg first, if_pos first'] at heq
      have row : f.references.map Reference.text = [] := flatMap_map_inj.mp heq
      exact .inr (.inl ⟨List.map_eq_nil_iff.mp row, first'⟩)
    · rw [if_neg first, if_neg first', flatMap_map_inj, Reference.map_text_inj h h'] at heq
      exact .inl heq
  · have without : ∀ {a b : OutputFragment}, Unmapped a b → a.maps = [] ∧ b.maps = [] := by
      rintro ⟨_, _, _⟩ ⟨_, _, _⟩ ⟨rfl, rfl⟩
      exact ⟨rfl, rfl⟩
    rintro (same | hu | hu)
    · rw [maps_eq_ite, maps_eq_ite, same]
    · exact (without hu).1.trans (without hu).2.symm
    · exact (without hu).2.trans (without hu).1.symm

end OutputFragment

namespace Graph

variable {g : Graph} {ts : List NodeId} {s : Sorted} {T : List Hop} {names : StreamNames}
  {c : Command} {i : NodeId} {feeds : Feeds} {f : OutputFragment}

/-! ## 2. Outputs of a command -/

/-- An output has a reference for each stream that it was built from. -/
theorem BuiltFrom.length_references (h : g.BuiltFrom i feeds)
    (hf : g.outputFragment names i = .ok f) : f.references.length = feeds.streams.length := by
  have edges := congrArg List.length h.supplies
  rw [List.length_map, List.length_map] at edges
  exact (outputFragment_eq_ok_iff.mp hf).1.length_eq.symm.trans edges

/-- The fragments of a command are those of its sinks, place by place. -/
theorem Compiled.outputFragment_eq (h : g.Compiled ts s T names c) {p : Nat}
    (hi : (g.sinks s)[p]? = some i) (hf : c.outputs[p]? = some f) :
    g.outputFragment names i = .ok f := by
  obtain ⟨_, row, hok⟩ := exists_getElem?_of_forall₂ h.outputs hi
  exact Option.some_inj.mp (row.symm.trans hf) ▸ hok

theorem Compiled.isName_references (h : g.Compiled ts s T names c)
    (hf : g.outputFragment names i = .ok f) : ∀ r ∈ f.references, IsName r.name :=
  h.named.isName_of_references h.traversed.sort (outputFragment_eq_ok_iff.mp hf).1

/-- Nodes stay built from their streams when others are added. -/
theorem BuiltFrom.add (h : g.BuiltFrom i feeds) (hi : i < g.nodes.size) (kind : NodeKind)
    (name : String) (params : Params) (path : Option String) (inputs : List Incoming) :
    (g.add kind name params path inputs).1.BuiltFrom i feeds := by
  have same := node_add_of_lt kind name params path inputs hi
  cases h with
  | filter g₀ n p h => exact .filter g₀ n p (same.trans h)
  | filterMulti g₀ n p h => exact .filterMulti g₀ n p (same.trans h)
  | output g₀ n p h => exact .output g₀ n p (same.trans h)

variable {settings : Settings} {streams : List Stream}

/-- **The maps of an output determine what it is fed with.** Two outputs of a command have the same
maps exactly when they have the same row of references, unless one of them takes nothing and the
other the whole first input alone; outputs built from a stream or from a row that is not empty are
never such a pair. -/
theorem maps_determine_references {args : List String}
    (h : g.compile settings streams = .ok args) :
    ∃ (s : Sorted) (c : Command), g.sort (g.terminals streams) = .ok s ∧
      g.command (g.terminals streams) = .ok c ∧ args = c.arguments settings ∧
      ∀ (p q : Nat) (i j : NodeId) (f f' : OutputFragment),
        (g.sinks s)[p]? = some i → c.outputs[p]? = some f →
        (g.sinks s)[q]? = some j → c.outputs[q]? = some f' →
        (f.maps = f'.maps ↔
          f.references = f'.references ∨ f.Unmapped f' ∨ f'.Unmapped f) ∧
        ∀ feeds feeds', g.BuiltFrom i feeds → g.BuiltFrom j feeds' →
          f.references.length = feeds.streams.length ∧
          f'.references.length = feeds'.streams.length ∧
          (feeds.streams ≠ [] → feeds'.streams ≠ [] → f.maps = f'.maps →
            f.references = f'.references) := by
  obtain ⟨c, hcom, rfl⟩ := compile_eq_ok_iff.mp h
  obtain ⟨s, T, names, hcomp⟩ := exists_compiled hcom
  have hsort := hcomp.traversed.sort
  refine ⟨s, c, hsort, hcom, rfl, fun p q i j f f' hi hf hj hf' => ?_⟩
  have hok := hcomp.outputFragment_eq hi hf
  have hok' := hcomp.outputFragment_eq hj hf'
  have maps := OutputFragment.maps_eq_iff (hcomp.isName_references hok)
    (hcomp.isName_references hok')
  refine ⟨maps, fun feeds feeds' hb hb' => ?_⟩
  have length := hb.length_references hok
  have length' := hb'.length_references hok'
  refine ⟨length, length', fun fed fed' heq => ?_⟩
  rcases maps.mp heq with same | hu | hu
  · exact same
  · rw [hu.nothing] at length
    exact absurd (List.length_eq_zero_iff.mp length.symm) fed
  · rw [hu.nothing] at length'
    exact absurd (List.length_eq_zero_iff.mp length'.symm) fed'

/-! ## 3. Outputs without maps -/

/-- Three outputs of one file: the first takes nothing, the others take the whole file, the last of
them as a row of one stream. -/
def unmapped : Graph :=
  let (g, s) := Graph.empty.source (some "in.mp4") (.options [])
  let (g, _) := g.output (.many []) (some "a.mp4") (.options [])
  let (g, _) := g.output (.one s) (some "b.mp4") (.options [])
  (g.output (.many [s]) (some "c.mp4") (.options [])).1

theorem number_unmapped_nothing : Identity.node Digest.ofJson .sink "output" (.options [])
    (some "a.mp4") [] = 0x047fc724573e7989 := by
  unfold Identity.node Digest.ofJson
  conv => lhs; arg 1; arg 1; cbv
  decide +kernel

theorem number_unmapped_one : Identity.node Digest.ofJson .sink "output" (.options [])
    (some "b.mp4") [⟨"", 0x04a838841dc2246b, "", none⟩] = 0x32b37dd20c0f8972 := by
  unfold Identity.node Identity.Term.number Digest.ofJson
  simp only [List.map_cons, List.map_nil, List.foldr_cons, List.foldr_nil]
  conv => lhs; arg 1; arg 1; cbv
  conv => lhs; arg 2; arg 1; arg 1; cbv
  decide +kernel

theorem number_unmapped_row : Identity.node Digest.ofJson .sink "output" (.options [])
    (some "c.mp4") [⟨"0", 0x04a838841dc2246b, "", none⟩] = 0xaad06495bcb7271a := by
  unfold Identity.node Identity.Term.number Digest.ofJson
  simp only [List.map_cons, List.map_nil, List.foldr_cons, List.foldr_nil]
  conv => lhs; arg 1; arg 1; cbv
  conv => lhs; arg 2; arg 1; arg 1; cbv
  decide +kernel

/-- The graph with the numbers that its nodes have. -/
theorem unmapped_eq : unmapped = ⟨#[
    ⟨.source, "input", .options [], some "in.mp4", [], [], 0x04a838841dc2246b⟩,
    ⟨.sink, "output", .options [], some "a.mp4", [], [], 0x047fc724573e7989⟩,
    ⟨.sink, "output", .options [], some "b.mp4", [⟨"", ⟨0, "", none⟩⟩], [], 0x32b37dd20c0f8972⟩,
    ⟨.sink, "output", .options [], some "c.mp4", [⟨"0", ⟨0, "", none⟩⟩], [],
      0xaad06495bcb7271a⟩]⟩ := by
  have added : unmapped = ((((Graph.empty.add
      .source "input" (.options []) (some "in.mp4") []).1.add
      .sink "output" (.options []) (some "a.mp4") []).1.add
      .sink "output" (.options []) (some "b.mp4") [⟨"", ⟨0, "", none⟩⟩]).1.add
      .sink "output" (.options []) (some "c.mp4") [⟨"0", ⟨0, "", none⟩⟩]).1 := rfl
  rw [added, add_of_number number_crossed_source rfl, add_of_number number_unmapped_nothing rfl,
    add_of_number number_unmapped_one, add_of_number number_unmapped_row] <;> rfl

/-- The streams behind its outputs. -/
def unmappedStreams : List Stream :=
  [unmapped.stream 1 "" none, unmapped.stream 2 "" none, unmapped.stream 3 "" none]

/-- The command that they compile to. -/
def unmappedCommand : Command := ⟨[⟨.options [], some "in.mp4"⟩], [],
  [⟨[], .options [], some "a.mp4"⟩, ⟨[.firstInput], .options [], some "b.mp4"⟩,
    ⟨[.firstInput], .options [], some "c.mp4"⟩]⟩

/-- The vector of its arguments: no output has a map. -/
def unmappedVector : List String :=
  ["ffmpeg", "-hide_banner", "-i", "in.mp4", "a.mp4", "b.mp4", "c.mp4", "-y"]

theorem unmapped_command :
    unmapped.command (unmapped.terminals unmappedStreams) = .ok unmappedCommand := by
  unfold unmappedStreams
  rw [unmapped_eq]
  cbv

theorem unmapped_compile : unmapped.compile .standard unmappedStreams = .ok unmappedVector :=
  compile_eq_ok_iff.mpr ⟨unmappedCommand, unmapped_command, rfl⟩

theorem unmapped_sort : ((unmapped.sort (unmapped.terminals unmappedStreams)).map fun s =>
    unmapped.sinks s) = .ok [1, 2, 3] := by
  unfold unmappedStreams
  rw [unmapped_eq]
  cbv

/-- The stream of the file. -/
def unmappedSource : Stream := ⟨.filterable, 0, "", none⟩

/-- The outputs were built from no stream, from one, and from a row of one. -/
theorem unmapped_built : unmapped.BuiltFrom 1 (.many []) ∧
    unmapped.BuiltFrom 2 (.one unmappedSource) ∧ unmapped.BuiltFrom 3 (.many [unmappedSource]) := by
  let g₁ := (Graph.empty.source (some "in.mp4") (.options [])).1
  let g₂ := (g₁.output (.many []) (some "a.mp4") (.options [])).1
  let g₃ := (g₂.output (.one unmappedSource) (some "b.mp4") (.options [])).1
  have nothing : g₂.BuiltFrom 1 (.many []) := .output g₁ _ _ rfl
  have one : g₃.BuiltFrom 2 (.one unmappedSource) := .output g₂ _ _ rfl
  have row : unmapped.BuiltFrom 3 (.many [unmappedSource]) := .output g₃ _ _ rfl
  have size₂ : g₂.nodes.size = 2 := size_add _ _ _ _ _
  have size₃ : g₃.nodes.size = 3 := (size_add _ _ _ _ _).trans (congrArg (· + 1) size₂)
  have inside₂ : 1 < g₂.nodes.size := Nat.lt_of_lt_of_eq (by decide) size₂.symm
  have inside₃ : 2 < g₃.nodes.size := Nat.lt_of_lt_of_eq (by decide) size₃.symm
  have stays : g₃.BuiltFrom 1 (.many []) := nothing.add inside₂ ..
  exact ⟨stays.add (Nat.lt_of_succ_lt inside₃) .., one.add inside₃ .., row⟩

/-- The second and the third output have the same maps, and so the same references. -/
theorem maps_determine_references_unmapped :
    unmapped.compile .standard unmappedStreams = .ok unmappedVector ∧
    unmapped.BuiltFrom 2 (.one unmappedSource) ∧ unmapped.BuiltFrom 3 (.many [unmappedSource]) ∧
    ∃ (s : Sorted) (c : Command) (f f' : OutputFragment),
      unmapped.sort (unmapped.terminals unmappedStreams) = .ok s ∧
      (unmapped.sinks s)[1]? = some 2 ∧ c.outputs[1]? = some f ∧
      (unmapped.sinks s)[2]? = some 3 ∧ c.outputs[2]? = some f' ∧
      f.maps = f'.maps ∧ f.references = f'.references := by
  obtain ⟨s, c, hsort, hcom, heq, all⟩ := maps_determine_references unmapped_compile
  obtain ⟨_, one, row⟩ := unmapped_built
  have sinks := unmapped_sort
  rw [hsort] at sinks
  have hsinks : unmapped.sinks s = [1, 2, 3] := Except.ok.inj sinks
  obtain rfl := Except.ok.inj (unmapped_command.symm.trans hcom)
  have hp : (unmapped.sinks s)[1]? = some 2 := by rw [hsinks]; rfl
  have hq : (unmapped.sinks s)[2]? = some 3 := by rw [hsinks]; rfl
  have pair := (all 1 2 2 3 _ _ hp rfl hq rfl).2 _ _ one row
  have same := pair.2.2 (List.cons_ne_nil _ _) (List.cons_ne_nil _ _) rfl
  exact ⟨unmapped_compile, one, row, s, unmappedCommand, _, _, hsort, hp, rfl, hq, rfl, rfl, same⟩

/-- **An output that takes nothing is written like one that takes the whole first input.** -/
theorem unmapped_outputs_look_alike :
    unmapped.compile .standard unmappedStreams = .ok unmappedVector ∧
    unmapped.BuiltFrom 1 (.many []) ∧ unmapped.BuiltFrom 2 (.one unmappedSource) ∧
    ∃ (s : Sorted) (f f' : OutputFragment),
      unmapped.sort (unmapped.terminals unmappedStreams) = .ok s ∧
      unmapped.command (unmapped.terminals unmappedStreams) = .ok unmappedCommand ∧
      (unmapped.sinks s)[0]? = some 1 ∧ unmappedCommand.outputs[0]? = some f ∧
      (unmapped.sinks s)[1]? = some 2 ∧ unmappedCommand.outputs[1]? = some f' ∧
      f.maps = f'.maps ∧ f.references = [] ∧ f'.references = [.firstInput] := by
  obtain ⟨nothing, one, _⟩ := unmapped_built
  obtain ⟨s, T, names, hcomp⟩ := exists_compiled unmapped_command
  have sinks := unmapped_sort
  rw [hcomp.traversed.sort] at sinks
  have hsinks : unmapped.sinks s = [1, 2, 3] := Except.ok.inj sinks
  have hp : (unmapped.sinks s)[0]? = some 1 := by rw [hsinks]; rfl
  have hq : (unmapped.sinks s)[1]? = some 2 := by rw [hsinks]; rfl
  exact ⟨unmapped_compile, nothing, one, s, _, _, hcomp.traversed.sort, unmapped_command, hp, rfl,
    hq, rfl, rfl, rfl, rfl⟩

end Graph

end FilterGraph
