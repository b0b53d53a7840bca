import FilterGraph.Graph.Stream
import FilterGraph.Proofs.Numerals
import FilterGraph.Proofs.Reach
import Mathlib.Data.List.Permutation

/-!
# Graphs as they are built

Nodes are added one by one, each with options of different names, with edges of different labels,
and fed by nodes that are there already. An edge that closes a cycle is not built this way.

* `Graph.Built`: the graphs that come about so; `Built.source`, `Built.filter`, `Built.filterMulti`
  and `Built.output`: the operations on streams build in this way;
* `Graph.Numbered`: what is true of a node from then on: its number is the one of its content and of
  its edges, and it is fed from below;
* **`Built.numbered`**: every node of a built graph is numbered. A later node changes nothing below
  it (`Numbered.add`), and is numbered itself (`numbered_add`);
* `Graph.crossed`, `Graph.sample`: graphs made by the operations, with the numbers that their nodes
  get.
-/

namespace FilterGraph

/-- The names of the options, in the order given. -/
def Params.names : Params → List String
  | .options entries => entries.map (·.1)
  | .literals _ => []

theorem Feeds.map_supply_edges (feeds : Feeds) :
    feeds.edges.map (·.supply) = feeds.streams.map Stream.supply := by
  cases feeds with
  | one s => rfl
  | many ss =>
    refine List.ext_getElem ?_ fun k _ _ => ?_
    · simp [Feeds.edges, Feeds.streams]
    · simp [Feeds.edges, Feeds.streams]

/-- The edges of several streams have numbers for labels. -/
theorem Feeds.labels_many (ss : List Stream) :
    (Feeds.many ss).edges.map (·.label) = (List.range ss.length).map Nat.repr := by
  refine List.ext_getElem ?_ fun k _ _ => ?_
  · simp [Feeds.edges]
  · simp [Feeds.edges, Nat.toString_eq_repr]

/-- The edges that streams become have different labels. -/
theorem Feeds.nodup_labels (feeds : Feeds) : (feeds.edges.map (·.label)).Nodup := by
  cases feeds with
  | one s => exact List.nodup_singleton _
  | many ss =>
    rw [labels_many]
    exact List.nodup_range.map fun _ _ => repr_inj.mp

namespace Graph

/-- The labels of the incoming edges of a node, in the order of their registration. -/
def labels (g : Graph) (i : NodeId) : List Label := (g.incoming i).map (·.label)

/-! ## 1. Building -/

/-- Graphs built node by node. -/
inductive Built : Graph → Prop where
  | empty : Built .empty
  | add {g : Graph} (h : Built g) (kind : NodeKind) (name : String) (params : Params)
      (path : Option String) (inputs : List Incoming) (names : params.names.Nodup)
      (labels : (inputs.map (·.label)).Nodup)
      (suppliers : ∀ e ∈ inputs, e.supply.node < g.nodes.size) :
      Built (g.add kind name params path inputs).1

/-- A node has the number of its content and its edges, its options and its edges are told apart by
their names and labels, and its suppliers were there before it. -/
structure Numbered (g : Graph) (i : NodeId) : Prop where
  number : g.hash i = Identity.node Digest.ofJson (g.node i).kind (g.node i).name (g.node i).params
    (g.node i).path ((g.incoming i).map g.term)
  names : (g.node i).params.names.Nodup
  labels : (g.labels i).Nodup
  suppliers : ∀ e ∈ g.incoming i, e.supply.node < i

section Add

variable {g : Graph} (kind : NodeKind) (name : String) (params : Params) (path : Option String)
  (inputs : List Incoming)

theorem size_add : (g.add kind name params path inputs).1.nodes.size = g.nodes.size + 1 := by
  simp [add]

/-- The nodes that are there stay as they are. -/
theorem node_add_of_lt {i : NodeId} (hi : i < g.nodes.size) :
    (g.add kind name params path inputs).1.node i = g.node i := by
  simp [add, node, Array.getD, hi, Nat.lt_succ_of_lt hi, Array.getElem_push_lt]

theorem incoming_add_of_lt {i : NodeId} (hi : i < g.nodes.size) :
    (g.add kind name params path inputs).1.incoming i = g.incoming i := by
  rw [incoming, incoming, node_add_of_lt _ _ _ _ _ hi]

theorem term_add_of_lt {e : Incoming} (he : e.supply.node < g.nodes.size) :
    (g.add kind name params path inputs).1.term e = g.term e := by
  rw [term, term, hash, hash, node_add_of_lt _ _ _ _ _ he]

/-- The node that is new. -/
theorem node_add_size : (g.add kind name params path inputs).1.node g.nodes.size =
    { kind, name, params, path, inputs, feedback := [],
      hash := Identity.node Digest.ofJson kind name params path (inputs.map g.term) } := by
  simp [add, node, Array.getD]

/-- A new node has the edges that it was added with. -/
theorem incoming_add : ((g.add kind name params path inputs).1.node
    (g.add kind name params path inputs).2).incoming = inputs := by
  have new := node_add_size (g := g) kind name params path inputs
  exact (congrArg Node.incoming new).trans (List.append_nil inputs)

/-- **A node keeps its number when others are added.** -/
theorem Numbered.add {i : NodeId} (h : g.Numbered i) (hi : i < g.nodes.size) :
    (g.add kind name params path inputs).1.Numbered i := by
  have same := node_add_of_lt kind name params path inputs hi
  have edges := incoming_add_of_lt kind name params path inputs hi
  have terms : (g.incoming i).map (g.add kind name params path inputs).1.term =
      (g.incoming i).map g.term :=
    List.map_congr_left fun e he =>
      term_add_of_lt kind name params path inputs (Nat.lt_trans (h.suppliers e he) hi)
  constructor
  · rw [hash, same, edges, terms]
    exact h.number
  · rw [same]
    exact h.names
  · rw [Graph.labels, edges]
    exact h.labels
  · rw [edges]
    exact h.suppliers

/-- **A new node is numbered.** -/
theorem numbered_add (names : params.names.Nodup) (nodup : (inputs.map (·.label)).Nodup)
    (suppliers : ∀ e ∈ inputs, e.supply.node < g.nodes.size) :
    (g.add kind name params path inputs).1.Numbered g.nodes.size := by
  have same := node_add_size (g := g) kind name params path inputs
  have edges : (g.add kind name params path inputs).1.incoming g.nodes.size = inputs :=
    incoming_add kind name params path inputs
  have terms : inputs.map (g.add kind name params path inputs).1.term = inputs.map g.term :=
    List.map_congr_left fun e he =>
      term_add_of_lt kind name params path inputs (suppliers e he)
  constructor
  · rw [hash, edges, terms, same]
  · rw [same]
    exact names
  · rw [labels, edges]
    exact nodup
  · rw [edges]
    exact suppliers

end Add

/-- **Every node of a built graph is numbered.** -/
theorem Built.numbered {g : Graph} (h : g.Built) {i : NodeId} (hi : i < g.nodes.size) :
    g.Numbered i := by
  induction h with
  | empty => simp [Graph.empty] at hi
  | @add g h kind name params path inputs names labels suppliers ih =>
    rw [size_add] at hi
    rcases Nat.lt_succ_iff_lt_or_eq.mp hi with hlt | rfl
    · exact (ih hlt).add kind name params path inputs hlt
    · exact numbered_add kind name params path inputs names labels suppliers

/-! ## 2. The operations on streams -/

section Operations

variable {g : Graph} {params : Params} {feeds : Feeds}

theorem suppliers_edges (hs : ∀ s ∈ feeds.streams, s.node < g.nodes.size) :
    ∀ e ∈ feeds.edges, e.supply.node < g.nodes.size := by
  intro e he
  have supply : e.supply ∈ feeds.streams.map Stream.supply := by
    rw [← Feeds.map_supply_edges]
    exact List.mem_map_of_mem he
  obtain ⟨s, mem, hs'⟩ := List.mem_map.mp supply
  rw [← hs']
  exact hs s mem

/-- A source is built. -/
theorem Built.source (h : g.Built) (hp : params.names.Nodup) (path : Option String) :
    (g.source path params).1.Built :=
  h.add .source "input" params path [] hp List.nodup_nil (fun _ he => nomatch he)

/-- A filter with several outputs is built. -/
theorem Built.filterMulti (h : g.Built) (hp : params.names.Nodup)
    (hs : ∀ s ∈ feeds.streams, s.node < g.nodes.size) (name : String) :
    (g.filterMulti feeds name params).1.Built :=
  h.add .transform name params none feeds.edges hp feeds.nodup_labels (suppliers_edges hs)

/-- A filter is built. -/
theorem Built.filter (h : g.Built) (hp : params.names.Nodup)
    (hs : ∀ s ∈ feeds.streams, s.node < g.nodes.size) (name : String) :
    (g.filter feeds name params).1.Built :=
  h.filterMulti hp hs name

/-- A sink is built. -/
theorem Built.output (h : g.Built) (hp : params.names.Nodup)
    (hs : ∀ s ∈ feeds.streams, s.node < g.nodes.size) (path : Option String) :
    (g.output feeds path params).1.Built :=
  h.add .sink "output" params path feeds.edges hp feeds.nodup_labels (suppliers_edges hs)

end Operations

/-! ## 3. Graphs with their numbers -/

theorem add_of_number {g : Graph} {kind : NodeKind} {name : String} {params : Params}
    {path : Option String} {inputs : List Incoming} {terms : List Identity.Term} {h : Digest}
    (hh : Identity.node Digest.ofJson kind name params path terms = h)
    (ht : inputs.map g.term = terms) : (g.add kind name params path inputs).1 =
      ⟨g.nodes.push { kind, name, params, path, inputs, feedback := [], hash := h }⟩ := by
  rw [← hh, ← ht]
  rfl

/-- A split whose second output is taken first. -/
def crossed : Graph :=
  let (g, s) := Graph.empty.source (some "in.mp4") (.options [])
  let (g, m) := g.filterMulti (.one s) "split" (.options [])
  (g.output (.many [g.stream m.node "1" none, g.stream m.node "0" none]) (some "out.mp4")
    (.options [])).1

theorem number_crossed_source : Identity.node Digest.ofJson .source "input" (.options [])
    (some "in.mp4") [] = 0x04a838841dc2246b := by
  -- the canonical text is written out first; its digest is a computation on closed words
  unfold Identity.node Digest.ofJson
  conv => lhs; arg 1; arg 1; cbv
  decide +kernel

theorem number_crossed_split : Identity.node Digest.ofJson .transform "split" (.options []) none
    [⟨"", 0x04a838841dc2246b, "", none⟩] = 0x6c3db155c69b35fe := by
  unfold Identity.node Identity.Term.number Digest.ofJson
  simp only [List.map_cons, List.map_nil, List.foldr_cons, List.foldr_nil]
  conv => lhs; arg 1; arg 1; cbv
  conv => lhs; arg 2; arg 1; arg 1; cbv
  decide +kernel

theorem number_crossed_sink : Identity.node Digest.ofJson .sink "output" (.options [])
    (some "out.mp4") [⟨"0", 0x6c3db155c69b35fe, "1", none⟩, ⟨"1", 0x6c3db155c69b35fe, "0", none⟩] =
      0x22037d824083b572 := by
  unfold Identity.node Identity.Term.number Digest.ofJson
  simp only [List.map_cons, List.map_nil, List.foldr_cons, List.foldr_nil]
  conv => lhs; arg 1; arg 1; cbv
  conv => lhs; arg 2; arg 1; arg 1; cbv
  conv => lhs; arg 2; arg 2; arg 1; arg 1; cbv
  decide +kernel

/-- The graph with the numbers that its nodes have. -/
theorem crossed_eq : crossed = ⟨#[
    ⟨.source, "input", .options [], some "in.mp4", [], [], 0x04a838841dc2246b⟩,
    ⟨.transform, "split", .options [], none, [⟨"", ⟨0, "", none⟩⟩], [], 0x6c3db155c69b35fe⟩,
    ⟨.sink, "output", .options [], some "out.mp4",
      [⟨"0", ⟨1, "1", none⟩⟩, ⟨"1", ⟨1, "0", none⟩⟩], [], 0x22037d824083b572⟩]⟩ := by
  have added : crossed = (((Graph.empty.add .source "input" (.options []) (some "in.mp4") []).1.add
      .transform "split" (.options []) none [⟨"", ⟨0, "", none⟩⟩]).1.add
      .sink "output" (.options []) (some "out.mp4")
      [⟨"0", ⟨1, "1", none⟩⟩, ⟨"1", ⟨1, "0", none⟩⟩]).1 := rfl
  rw [added, add_of_number number_crossed_source rfl, add_of_number number_crossed_split,
    add_of_number number_crossed_sink] <;> rfl

/-- The places of its nodes. -/
def crossedPlaces : List NodeId := [0, 1, 2]

theorem crossed_collisionless {ts : List NodeId} (hts : ∀ t ∈ ts, t ∈ crossedPlaces) :
    crossed.Collisionless ts := by
  have closed : ∀ i ∈ crossedPlaces, ∀ e ∈ crossed.incoming i, e.supply.node ∈ crossedPlaces := by
    rw [crossed_eq]
    decide
  have all : ∀ i ∈ crossedPlaces, ∀ j ∈ crossedPlaces, crossed.hash i = crossed.hash j →
      crossed.node i = crossed.node j := by
    rw [crossed_eq]
    decide
  intro i j hi hj hij
  exact sameNode_of_node_eq
    (all i (hi.mem_of_closed hts closed) j (hj.mem_of_closed hts closed) hij)

/-- A source that is built twice, a filter with two outputs, a filter that joins both outputs and
the second copy of the source, and two sinks; then a sink that takes an output of the first filter
once more. -/
def sample : Graph :=
  let (g, s) := Graph.empty.source (some "in.mp4") (.options [("t", "1")])
  let (g, s') := g.source (some "in.mp4") (.options [("t", "1")])
  let (g, m) := g.filterMulti (.one (g.stream s.node "" (some .video))) "split" (.literals [])
  let (g, x) := g.filter (.many [g.stream m.node "1" none, g.stream m.node "0" none, s']) "xstack"
    (.options [("inputs", "3")])
  let (g, _) := g.output (.many [x, g.stream s'.node "" (some .audio)]) (some "a.mp4") (.options [])
  let (g, _) := g.output (.one s') (some "b.mp4") (.options [])
  (g.output (.one (g.stream m.node "1" none)) (some "c.mp4") (.options [])).1

theorem number_sample_source : Identity.node Digest.ofJson .source "input" (.options [("t", "1")])
    (some "in.mp4") [] = 0x0df44f9c702bb1a4 := by
  unfold Identity.node Digest.ofJson
  conv => lhs; arg 1; arg 1; cbv
  decide +kernel

theorem number_sample_split : Identity.node Digest.ofJson .transform "split" (.literals []) none
    [⟨"", 0x0df44f9c702bb1a4, "", some .video⟩] = 0x095e3a2f6b9b8969 := by
  unfold Identity.node Identity.Term.number Digest.ofJson
  simp only [List.map_cons, List.map_nil, List.foldr_cons, List.foldr_nil]
  conv => lhs; arg 1; arg 1; cbv
  conv => lhs; arg 2; arg 1; arg 1; cbv
  decide +kernel

theorem number_sample_join : Identity.node Digest.ofJson .transform "xstack"
    (.options [("inputs", "3")]) none [⟨"0", 0x095e3a2f6b9b8969, "1", none⟩,
      ⟨"1", 0x095e3a2f6b9b8969, "0", none⟩, ⟨"2", 0x0df44f9c702bb1a4, "", none⟩] =
      0xdf5c390c387da028 := by
  unfold Identity.node Identity.Term.number Digest.ofJson
  simp only [List.map_cons, List.map_nil, List.foldr_cons, List.foldr_nil]
  conv => lhs; arg 1; arg 1; cbv
  conv => lhs; arg 2; arg 1; arg 1; cbv
  conv => lhs; arg 2; arg 2; arg 1; arg 1; cbv
  conv => lhs; arg 2; arg 2; arg 2; arg 1; arg 1; cbv
  decide +kernel

theorem number_sample_first : Identity.node Digest.ofJson .sink "output" (.options [])
    (some "a.mp4") [⟨"0", 0xdf5c390c387da028, "", none⟩,
      ⟨"1", 0x0df44f9c702bb1a4, "", some .audio⟩] = 0x945fc42b58906e36 := by
  unfold Identity.node Identity.Term.number Digest.ofJson
  simp only [List.map_cons, List.map_nil, List.foldr_cons, List.foldr_nil]
  conv => lhs; arg 1; arg 1; cbv
  conv => lhs; arg 2; arg 1; arg 1; cbv
  conv => lhs; arg 2; arg 2; arg 1; arg 1; cbv
  decide +kernel

theorem number_sample_second : Identity.node Digest.ofJson .sink "output" (.options [])
    (some "b.mp4") [⟨"", 0x0df44f9c702bb1a4, "", none⟩] = 0x03fe2d57f8dd4475 := by
  unfold Identity.node Identity.Term.number Digest.ofJson
  simp only [List.map_cons, List.map_nil, List.foldr_cons, List.foldr_nil]
  conv => lhs; arg 1; arg 1; cbv
  conv => lhs; arg 2; arg 1; arg 1; cbv
  decide +kernel

theorem number_sample_third : Identity.node Digest.ofJson .sink "output" (.options [])
    (some "c.mp4") [⟨"", 0x095e3a2f6b9b8969, "1", none⟩] = 0xca1a23f93b0365ca := by
  unfold Identity.node Identity.Term.number Digest.ofJson
  simp only [List.map_cons, List.map_nil, List.foldr_cons, List.foldr_nil]
  conv => lhs; arg 1; arg 1; cbv
  conv => lhs; arg 2; arg 1; arg 1; cbv
  decide +kernel

/-- The sample with the numbers that its nodes have. -/
theorem sample_eq : sample = ⟨#[
    ⟨.source, "input", .options [("t", "1")], some "in.mp4", [], [], 0x0df44f9c702bb1a4⟩,
    ⟨.source, "input", .options [("t", "1")], some "in.mp4", [], [], 0x0df44f9c702bb1a4⟩,
    ⟨.transform, "split", .literals [], none, [⟨"", ⟨0, "", some .video⟩⟩], [],
      0x095e3a2f6b9b8969⟩,
    ⟨.transform, "xstack", .options [("inputs", "3")], none,
      [⟨"0", ⟨2, "1", none⟩⟩, ⟨"1", ⟨2, "0", none⟩⟩, ⟨"2", ⟨1, "", none⟩⟩], [],
      0xdf5c390c387da028⟩,
    ⟨.sink, "output", .options [], some "a.mp4",
      [⟨"0", ⟨3, "", none⟩⟩, ⟨"1", ⟨1, "", some .audio⟩⟩], [], 0x945fc42b58906e36⟩,
    ⟨.sink, "output", .options [], some "b.mp4", [⟨"", ⟨1, "", none⟩⟩], [], 0x03fe2d57f8dd4475⟩,
    ⟨.sink, "output", .options [], some "c.mp4", [⟨"", ⟨2, "1", none⟩⟩], [],
      0xca1a23f93b0365ca⟩]⟩ := by
  have added : sample = (((((((Graph.empty.add
      .source "input" (.options [("t", "1")]) (some "in.mp4") []).1.add
      .source "input" (.options [("t", "1")]) (some "in.mp4") []).1.add
      .transform "split" (.literals []) none [⟨"", ⟨0, "", some .video⟩⟩]).1.add
      .transform "xstack" (.options [("inputs", "3")]) none
        [⟨"0", ⟨2, "1", none⟩⟩, ⟨"1", ⟨2, "0", none⟩⟩, ⟨"2", ⟨1, "", none⟩⟩]).1.add
      .sink "output" (.options []) (some "a.mp4")
        [⟨"0", ⟨3, "", none⟩⟩, ⟨"1", ⟨1, "", some .audio⟩⟩]).1.add
      .sink "output" (.options []) (some "b.mp4") [⟨"", ⟨1, "", none⟩⟩]).1.add
      .sink "output" (.options []) (some "c.mp4") [⟨"", ⟨2, "1", none⟩⟩]).1 := rfl
  rw [added, add_of_number number_sample_source rfl, add_of_number number_sample_source rfl,
    add_of_number number_sample_split, add_of_number number_sample_join,
    add_of_number number_sample_first, add_of_number number_sample_second,
    add_of_number number_sample_third] <;> rfl

/-- The places of the sample's nodes. -/
def samplePlaces : List NodeId := [0, 1, 2, 3, 4, 5, 6]

/-- What stands above nodes of the sample is a node of the sample. -/
theorem sample_above {ts : List NodeId} (hts : ∀ t ∈ ts, t ∈ samplePlaces) {i : NodeId}
    (hi : sample.Above ts i) : i ∈ samplePlaces := by
  have closed : ∀ i ∈ samplePlaces, ∀ e ∈ sample.incoming i, e.supply.node ∈ samplePlaces := by
    rw [sample_eq]
    decide
  exact hi.mem_of_closed hts closed

theorem sample_terminals {ss : List Stream} (h : ∀ i ∈ ss.map (·.node), i ∈ samplePlaces) :
    ∀ t ∈ sample.terminals ss, t ∈ samplePlaces :=
  fun t ht => h t (mem_of_mem_distinct ht)

theorem sample_collisionless {ts : List NodeId} (hts : ∀ t ∈ ts, t ∈ samplePlaces) :
    sample.Collisionless ts := by
  have all : ∀ i ∈ samplePlaces, ∀ j ∈ samplePlaces, sample.hash i = sample.hash j →
      sample.node i = sample.node j := by
    rw [sample_eq]
    decide
  intro i j hi hj hij
  exact sameNode_of_node_eq (all i (sample_above hts hi) j (sample_above hts hj) hij)

theorem sample_not_cyclic {ts : List NodeId} (hts : ∀ t ∈ ts, t ∈ samplePlaces) :
    ¬ sample.Cyclic ts := by
  have all : ∀ i ∈ samplePlaces, ∀ e ∈ sample.incoming i,
      (samplePlaces.map sample.hash).idxOf (sample.hash e.supply.node) <
        (samplePlaces.map sample.hash).idxOf (sample.hash i) := by
    rw [sample_eq]
    decide
  exact not_cyclic_of_rank (fun d => (samplePlaces.map sample.hash).idxOf d)
    fun i hi => all i (sample_above hts hi)

end Graph

end FilterGraph
