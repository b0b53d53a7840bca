import FilterGraph.Document.Wiring
import FilterGraph.Proofs.Construction
import FilterGraph.Proofs.Outcome
import FilterGraph.Proofs.ValidDocument
import Mathlib.Order.Lattice.Nat

/-!
# A document that keeps the rules is built

The rules are checked on ids, by a walk of their own; building follows the addresses from the
outputs and keeps what it has built. Here the one is led back to the other.

* `Graph.Extends`, `Wiring.Grows`: nodes that are there stay, and ids keep what they stand for;
* `Wiring.Reflects`: what is there is as the document says, and every node that was added is fed from
  below by nodes that were added and are no sinks;
* `resolveAll_ok`, `builds`: resolving and building succeed and keep this. The induction is on a
  bound for the ranks of the filters asked for: the filters on the path lie at or above it;
* `Graph.not_cyclic_of_fed_below`: what is fed from below has no cycle between numbers either;
* `Pipeline.exists_built`, `Reflects.command_or_shared`: the two halves of the main statement;
* **`Pipeline.toGraph_succeeds`**: a document that keeps the rules is built, one stream for each of its
  outputs, and its command is there unless a filter's output has several consumers.
-/

namespace FilterGraph

/-! ## 1. Growing graphs -/

namespace Graph

/-- The later graph has the nodes of the earlier one. -/
structure Extends (g g' : Graph) : Prop where
  size : g.nodes.size ≤ g'.nodes.size
  node : ∀ i, i < g.nodes.size → g'.node i = g.node i

/-- A node with its content and its edges; the number is whatever it was given. -/
def Holds (g : Graph) (i : NodeId) (kind : NodeKind) (name : String) (params : Params)
    (path : Option String) (edges : List Incoming) : Prop :=
  g.node i = { kind, name, params, path, inputs := edges, feedback := [], hash := g.hash i }

variable {g g' g'' : Graph} {ts : List NodeId} {kind : NodeKind} {name : String} {params : Params}
  {path : Option String} {edges : List Incoming}

theorem Extends.refl (g : Graph) : g.Extends g := ⟨Nat.le_refl _, fun _ _ => rfl⟩

theorem Extends.trans (h : g.Extends g') (h' : g'.Extends g'') : g.Extends g'' :=
  ⟨Nat.le_trans h.size h'.size,
    fun i hi => (h'.node i (Nat.lt_of_lt_of_le hi h.size)).trans (h.node i hi)⟩

theorem extends_add : g.Extends (g.add kind name params path edges).1 :=
  ⟨size_add .. ▸ Nat.le_succ _, fun _ hi => node_add_of_lt _ _ _ _ _ hi⟩

theorem holds_add :
    (g.add kind name params path edges).1.Holds g.nodes.size kind name params path edges := by
  unfold Holds hash
  rw [node_add_size]

theorem Holds.extend {i : NodeId} (h : g.Holds i kind name params path edges)
    (he : g.Extends g') (hi : i < g.nodes.size) : g'.Holds i kind name params path edges := by
  unfold Holds hash
  rw [he.node i hi]
  exact h

theorem Holds.kind_eq {i : NodeId} (h : g.Holds i kind name params path edges) :
    (g.node i).kind = kind :=
  congrArg Node.kind h

theorem Holds.incoming_eq {i : NodeId} (h : g.Holds i kind name params path edges) :
    g.incoming i = edges :=
  (congrArg Node.incoming h).trans (List.append_nil edges)

theorem Extends.stream (he : g.Extends g') {i : NodeId} (hi : i < g.nodes.size) (l : Label)
    (c : Option Selector) : g'.stream i l c = g.stream i l c := by
  rw [Graph.stream, Graph.stream, he.node i hi]

/-- **What is fed from below has no cycle.** The rank of a number is the lowest place where it is
found: there the edges of any node of this number have their counterparts. -/
theorem not_cyclic_of_fed_below (hc : g.Coherent ts)
    (h : ∀ i, g.Above ts i → ∀ e ∈ g.incoming i, e.supply.node < i) : ¬ g.Cyclic ts := by
  let places (d : Digest) : Set Nat := {i | g.Above ts i ∧ g.hash i = d}
  refine not_cyclic_of_rank (fun d => sInf (places d)) fun i hi e he => ?_
  obtain ⟨lowest, hash⟩ : sInf (places (g.hash i)) ∈ places (g.hash i) :=
    Nat.sInf_mem ⟨i, hi, rfl⟩
  obtain ⟨e', he', hterm⟩ := hc.counterpart hi lowest hash.symm he
  have supplier : g.hash e'.supply.node = g.hash e.supply.node :=
    congrArg Identity.Term.supplier hterm
  have least : sInf (places (g.hash e.supply.node)) ≤ e'.supply.node :=
    Nat.sInf_le ⟨.feeds lowest he', supplier⟩
  exact Nat.lt_of_le_of_lt least (h _ lowest e' he')

end Graph

/-- A row of streams has the streams. -/
theorem Feeds.streams_ofStreams (ss : List Stream) : (Feeds.ofStreams ss).streams = ss := by
  unfold Feeds.ofStreams
  split <;> rfl

namespace Wiring

open FilterGraph.Graph

/-! ## 2. What has been built -/

/-- The place of the node that an id stands for. -/
def place? (w : Wiring) (id : String) : Option NodeId :=
  match Entries.find? id w.sources with
  | some s => some s.node
  | none => (Entries.find? id w.filters).map (·.node)

/-- An address gives a stream: the output of that label, and the component asked for. -/
structure Yields (w : Wiring) (r : StreamAddress) (s : Stream) : Prop where
  place : w.place? r.node = some s.node
  stream : s = w.graph.stream s.node r.label r.selector

/-- Building goes on: nodes stay, ids keep what they stand for, and only filters whose rank is below
the bound are added. -/
structure Grows (rank : String → Nat) (b : Nat) (w w' : Wiring) : Prop where
  graph : w.graph.Extends w'.graph
  sources : w'.sources = w.sources
  filters : ∀ id m, Entries.find? id w.filters = some m → Entries.find? id w'.filters = some m
  others : ∀ id, b ≤ rank id → Entries.find? id w'.filters = Entries.find? id w.filters

/-- What ids stand for is as the document says, and lies at or above place `n`, where building began;
a node from there on is fed from between there and itself, and not by a sink. -/
structure Reflects (d : Document) (n : Nat) (w : Wiring) : Prop where
  start : n ≤ w.graph.nodes.size
  inputs : ∀ id ∈ d.inputIds, ∃ s, Entries.find? id w.sources = some s
  source : ∀ id s, Entries.find? id w.sources = some s → ∃ e, (id, e) ∈ d.inputs ∧
    w.graph.Holds s.node .source "input" e.params.toParams (some e.path) [] ∧
    s = w.graph.stream s.node "" none
  filter : ∀ id m, Entries.find? id w.filters = some m → id ∉ d.inputIds ∧
    ∃ f ss, Entries.find? id d.filters = some f ∧ List.Forall₂ w.Yields f.inputs ss ∧
      w.graph.Holds m.node .transform f.name f.params.toParams none (Feeds.ofStreams ss).edges
  place : ∀ id i, w.place? id = some i → n ≤ i ∧ i < w.graph.nodes.size
  below : ∀ i, n ≤ i → i < w.graph.nodes.size → ∀ e ∈ w.graph.incoming i,
    n ≤ e.supply.node ∧ e.supply.node < i ∧ (w.graph.node e.supply.node).kind ≠ .sink

variable {d : Document} {n : Nat} {w w' w'' : Wiring} {rank : String → Nat} {b c : Nat}
  {r : StreamAddress} {rs : List StreamAddress} {s : Stream} {ss : List Stream} {id : String}

theorem Grows.refl (w : Wiring) : Grows rank b w w :=
  ⟨.refl _, rfl, fun _ _ h => h, fun _ _ => rfl⟩

theorem Grows.trans (h : Grows rank b w w') (h' : Grows rank b w' w'') : Grows rank b w w'' :=
  ⟨h.graph.trans h'.graph, h'.sources.trans h.sources,
    fun id m hm => h'.filters id m (h.filters id m hm),
    fun id hid => (h'.others id hid).trans (h.others id hid)⟩

theorem Grows.mono (h : Grows rank b w w') (hbc : b ≤ c) : Grows rank c w w' :=
  ⟨h.graph, h.sources, h.filters, fun id hid => h.others id (Nat.le_trans hbc hid)⟩

theorem grows_graph {g : Graph} (h : w.graph.Extends g) : Grows rank b w { w with graph := g } :=
  ⟨h, rfl, fun _ _ hm => hm, fun _ _ => rfl⟩

theorem grows_set (hnew : Entries.find? id w.filters = none) (hid : rank id < b) {m : MultiOutput} :
    Grows rank b w { w with filters := Entries.set id m w.filters } := by
  refine ⟨.refl _, rfl, fun x m' hm => ?_, fun x hx => ?_⟩
  · have hne : x ≠ id := fun heq => by
      rw [heq, hnew] at hm
      cases hm
    rw [Entries.find?_set, if_neg hne]
    exact hm
  · have hne : x ≠ id := fun heq => absurd hid (Nat.not_lt.mpr (heq ▸ hx))
    rw [Entries.find?_set, if_neg hne]

theorem Grows.place? (h : Grows rank b w w') {i : NodeId} (hi : w.place? id = some i) :
    w'.place? id = some i := by
  unfold Wiring.place? at hi ⊢
  rw [h.sources]
  cases hs : Entries.find? id w.sources with
  | some s =>
    rw [hs] at hi
    exact hi
  | none =>
    rw [hs] at hi
    obtain ⟨m, hm, rfl⟩ := Option.map_eq_some_iff.mp hi
    exact Option.map_eq_some_iff.mpr ⟨m, h.filters id m hm, rfl⟩

theorem place?_of_source (hs : Entries.find? id w.sources = some s) :
    w.place? id = some s.node := by
  rw [place?, hs]

theorem Reflects.place?_of_filter (h : Reflects d n w) {m : MultiOutput}
    (hm : Entries.find? id w.filters = some m) : w.place? id = some m.node := by
  cases hs : Entries.find? id w.sources with
  | none => rw [place?, hs, hm]; rfl
  | some s =>
    obtain ⟨e, he, _⟩ := h.source id s hs
    exact absurd (List.mem_map_of_mem he) (h.filter id m hm).1

/-- An id stands for a source or a filter. -/
theorem Reflects.kind_ne_sink (h : Reflects d n w) {i : NodeId} (hi : w.place? id = some i) :
    (w.graph.node i).kind ≠ .sink := by
  unfold Wiring.place? at hi
  cases hs : Entries.find? id w.sources with
  | some s =>
    obtain ⟨e, _, holds, _⟩ := h.source id s hs
    rw [hs] at hi
    cases hi
    rw [holds.kind_eq]
    exact nofun
  | none =>
    rw [hs] at hi
    obtain ⟨m, hm, rfl⟩ := Option.map_eq_some_iff.mp hi
    obtain ⟨_, f, ss, _, _, holds⟩ := h.filter id m hm
    rw [holds.kind_eq]
    exact nofun

theorem Yields.grow (h : w.Yields r s) (hr : Reflects d n w) (hg : Grows rank b w w') :
    w'.Yields r s := by
  refine ⟨hg.place? h.place, ?_⟩
  rw [hg.graph.stream (hr.place _ _ h.place).2]
  exact h.stream

theorem yields_grow (h : List.Forall₂ w.Yields rs ss) (hr : Reflects d n w)
    (hg : Grows rank b w w') : List.Forall₂ w'.Yields rs ss :=
  h.imp fun _ _ hy => hy.grow hr hg

/-- The edges that resolved streams become come from nodes that were added, and from no sink. -/
theorem Reflects.edges (h : Reflects d n w) (hy : List.Forall₂ w.Yields rs ss) :
    ∀ e ∈ (Feeds.ofStreams ss).edges, n ≤ e.supply.node ∧ e.supply.node < w.graph.nodes.size ∧
      (w.graph.node e.supply.node).kind ≠ .sink := by
  intro e he
  have supply : e.supply ∈ ss.map Stream.supply := by
    rw [← Feeds.streams_ofStreams ss, ← Feeds.map_supply_edges]
    exact List.mem_map_of_mem he
  obtain ⟨s, hs, heq⟩ := List.mem_map.mp supply
  obtain ⟨r, _, hy⟩ := exists_mem_of_forall₂ hy.flip hs
  rw [← heq]
  exact ⟨(h.place _ _ hy.place).1, (h.place _ _ hy.place).2, h.kind_ne_sink hy.place⟩

/-! ## 3. Adding a node -/

/-- **A node that resolved streams feed can be added.** -/
theorem Reflects.add (h : Reflects d n w) {kind : NodeKind} {name : String} {params : Params}
    {path : Option String} {es : List Incoming}
    (hes : ∀ e ∈ es, n ≤ e.supply.node ∧ e.supply.node < w.graph.nodes.size ∧
      (w.graph.node e.supply.node).kind ≠ .sink) :
    Reflects d n { w with graph := (w.graph.add kind name params path es).1 } := by
  have grows : Grows (fun _ => 0) 0 w { w with graph := (w.graph.add kind name params path es).1 } :=
    grows_graph extends_add
  refine ⟨Nat.le_trans h.start grows.graph.size, h.inputs, fun id s hs => ?_, fun id m hm => ?_,
    fun id i hi => ?_, fun i hn hi e he => ?_⟩
  · obtain ⟨e, he, holds, heq⟩ := h.source id s hs
    have hi := (h.place id _ (place?_of_source hs)).2
    refine ⟨e, he, holds.extend grows.graph hi, ?_⟩
    rw [grows.graph.stream hi]
    exact heq
  · obtain ⟨hid, f, ss, hf, hy, holds⟩ := h.filter id m hm
    have hi := (h.place id _ (h.place?_of_filter hm)).2
    exact ⟨hid, f, ss, hf, yields_grow hy h grows, holds.extend grows.graph hi⟩
  · obtain ⟨hn, hi⟩ := h.place id i hi
    exact ⟨hn, Nat.lt_of_lt_of_le hi grows.graph.size⟩
  · rcases Nat.lt_succ_iff_lt_or_eq.mp (size_add .. ▸ hi) with hlt | rfl
    · rw [incoming_add_of_lt _ _ _ _ _ hlt] at he
      obtain ⟨hn', hlt', hk⟩ := h.below i hn hlt e he
      exact ⟨hn', hlt', (grows.graph.node _ (Nat.lt_trans hlt' hlt)).symm ▸ hk⟩
    · rw [holds_add.incoming_eq] at he
      obtain ⟨hn', hlt', hk⟩ := hes e he
      exact ⟨hn', hlt', (grows.graph.node _ hlt').symm ▸ hk⟩

/-- **An id that stood for nothing can be given to a filter that was added.** -/
theorem Reflects.set (h : Reflects d n w) (hid : id ∉ d.inputIds) {f : FilterEntry}
    (hf : Entries.find? id d.filters = some f) (hnew : Entries.find? id w.filters = none) {i : NodeId}
    (hn : n ≤ i) (hi : i < w.graph.nodes.size) (hy : List.Forall₂ w.Yields f.inputs ss)
    (holds : w.graph.Holds i .transform f.name f.params.toParams none (Feeds.ofStreams ss).edges) :
    Reflects d n { w with filters := Entries.set id ⟨i⟩ w.filters } := by
  have grows : Grows (fun _ => 0) 1 w { w with filters := Entries.set id ⟨i⟩ w.filters } :=
    grows_set hnew Nat.zero_lt_one
  refine ⟨h.start, h.inputs, h.source, fun x m hm => ?_, fun x j hj => ?_, h.below⟩
  · rw [Entries.find?_set] at hm
    split at hm
    · rename_i heq
      cases hm
      rw [heq]
      exact ⟨hid, f, ss, hf, yields_grow hy h grows, holds⟩
    · obtain ⟨hx, f', ss', hf', hy', holds'⟩ := h.filter x m hm
      exact ⟨hx, f', ss', hf', yields_grow hy' h grows, holds'⟩
  · unfold Wiring.place? at hj
    cases hs : Entries.find? x w.sources with
    | some s =>
      rw [hs] at hj
      cases hj
      exact h.place x s.node (place?_of_source hs)
    | none =>
      rw [hs] at hj
      obtain ⟨m, hm, rfl⟩ := Option.map_eq_some_iff.mp hj
      rw [Entries.find?_set] at hm
      split at hm
      · cases hm
        exact ⟨hn, hi⟩
      · exact h.place x m.node (h.place?_of_filter hm)

/-! ## 4. Inputs -/

/-- Adding an input. -/
theorem Reflects.addInput {es : List (String × InputEntry)} {fs : Filters} {os : List OutputEntry}
    (h : Reflects ⟨es, fs, os⟩ n w) (hw : w.filters = []) (e : String × InputEntry) :
    Reflects ⟨es ++ [e], fs, os⟩ n (w.addInput e) ∧ (w.addInput e).filters = [] := by
  obtain ⟨id, entry⟩ := e
  have added : Reflects ⟨es, fs, os⟩ n
      { w with graph := (w.graph.source (some entry.path) entry.params.toParams).1 } :=
    h.add fun _ he => absurd he List.not_mem_nil
  have lookup : ∀ x, Entries.find? x (w.addInput (id, entry)).sources =
      if x = id then some (w.graph.source (some entry.path) entry.params.toParams).2
      else Entries.find? x w.sources := fun x => Entries.find?_set ..
  refine ⟨⟨added.start, fun x hx => ?_, fun x s hs => ?_, fun x m hm => ?_, fun x i hi => ?_,
    added.below⟩, hw⟩
  · rw [lookup]
    split
    · exact ⟨_, rfl⟩
    · rename_i hne
      simp only [Document.inputIds, List.map_append, List.mem_append, List.map_cons, List.map_nil,
        List.mem_singleton, hne, or_false] at hx
      exact h.inputs x hx
  · rw [lookup] at hs
    split at hs
    · rename_i heq
      cases hs
      exact ⟨entry, heq ▸ List.mem_append_right _ (List.mem_singleton_self _), holds_add, rfl⟩
    · obtain ⟨e, he, holds, heq⟩ := added.source x s hs
      exact ⟨e, List.mem_append_left _ he, holds, heq⟩
  · have none : Entries.find? x (w.addInput (id, entry)).filters = none := by
      rw [show (w.addInput (id, entry)).filters = [] from hw]
      rfl
    rw [none] at hm
    cases hm
  · unfold Wiring.place? at hi
    rw [lookup] at hi
    split at hi
    · rename_i s hs
      cases hi
      split at hs
      · cases hs
        exact ⟨h.start, size_add .. ▸ Nat.lt_succ_self _⟩
      · exact added.place x s.node (place?_of_source hs)
    · rw [show (w.addInput (id, entry)).filters = [] from hw] at hi
      cases hi

theorem extends_inputs (es : List (String × InputEntry)) (w : Wiring) :
    w.graph.Extends (es.foldl Wiring.addInput w).graph := by
  induction es generalizing w with
  | nil => exact .refl _
  | cons e es ih => exact extends_add.trans (ih (w.addInput e))

/-- **After the inputs, the graph reflects the document.** -/
theorem reflects_inputs (d : Document) (g : Graph) :
    Reflects d g.nodes.size (d.inputs.foldl Wiring.addInput ⟨g, [], []⟩) := by
  obtain ⟨es, fs, os⟩ := d
  suffices both : Reflects ⟨es, fs, os⟩ g.nodes.size (es.foldl Wiring.addInput ⟨g, [], []⟩) ∧
      (es.foldl Wiring.addInput ⟨g, [], []⟩).filters = [] from both.1
  induction es using List.reverseRecOn with
  | nil =>
    refine ⟨⟨Nat.le_refl _, fun _ h => ?_, nofun, nofun, nofun, fun i hn hi => ?_⟩, rfl⟩
    · cases h
    · exact absurd hi (Nat.not_lt.mpr hn)
  | append_singleton es e ih =>
    rw [List.foldl_append]
    exact ih.1.addInput ih.2 e

/-! ## 5. Filters and outputs -/

theorem Reflects.addFilter (h : Reflects d n w) (hid : id ∉ d.inputIds) {f : FilterEntry}
    (hf : Entries.find? id d.filters = some f) (hnew : Entries.find? id w.filters = none)
    (hb : rank id < b) (hy : List.Forall₂ w.Yields f.inputs ss) :
    Grows rank b w (w.addFilter id f ss).1 ∧ Reflects d n (w.addFilter id f ss).1 ∧
      Entries.find? id (w.addFilter id f ss).1.filters = some (w.addFilter id f ss).2 := by
  let added : Wiring := { w with
    graph := (w.graph.filterMulti (.ofStreams ss) f.name f.params.toParams).1 }
  have step : Grows rank b w added := grows_graph extends_add
  have hadded : Reflects d n added := h.add (h.edges hy)
  have free : Entries.find? id added.filters = none := hnew
  refine ⟨step.trans (grows_set free hb), hadded.set hid hf free h.start
    (size_add .. ▸ Nat.lt_succ_self _) (yields_grow hy h step) holds_add, ?_⟩
  exact (Entries.find?_set ..).trans (if_pos rfl)

/-- A filter that is not there and not on the path is added after all that it asks for. -/
theorem filter_of_new {fs : Filters} {path : List String} {f : FilterEntry}
    (hnew : Entries.find? id w.filters = none) (off : id ∉ path)
    (hf : Entries.find? id fs = some f) : Wiring.filter fs path w id =
      (resolveAll fs (path ++ [id]) w f.inputs).map fun (w, ss) => w.addFilter id f ss := by
  rw [Wiring.filter, hnew]
  dsimp only
  rw [dif_neg off]
  split
  · rename_i hnone
    rw [hf] at hnone
    cases hnone
  · rename_i f' hf'
    cases hf.symm.trans hf'
    rfl

/-- A stream can be narrowed once. -/
theorem narrowed_stream (w : Wiring) (i : NodeId) (l : Label) (c : Option Selector) :
    w.narrowed (w.graph.stream i l none) c = .ok (w.graph.stream i l c) := by
  cases c <;> rfl

/-- Filters whose rank is below the bound can be built while filters at or above it are being
built. -/
def Builds (d : Document) (n : Nat) (rank : String → Nat) (b : Nat) : Prop :=
  ∀ w path id f, Reflects d n w → id ∉ d.inputIds → Entries.find? id d.filters = some f →
    rank id < b → (∀ x ∈ path, b ≤ rank x) →
    ∃ w' m, Wiring.filter d.filters path w id = .ok (w', m) ∧ Grows rank b w w' ∧
      Reflects d n w' ∧ Entries.find? id w'.filters = some m

/-- An address that names something is resolved. -/
theorem resolve_ok (hb : Builds d n rank b) (hw : Reflects d n w) (hr : d.Names r)
    (hrank : (Entries.find? r.node d.filters).isSome → rank r.node < b) {path : List String}
    (hpath : ∀ x ∈ path, b ≤ rank x) :
    ∃ w' s, resolve d.filters path w r = .ok (w', s) ∧ Grows rank b w w' ∧ Reflects d n w' ∧
      w'.Yields r s := by
  rw [resolve]
  cases hr with
  | input hid label =>
    obtain ⟨s, hs⟩ := hw.inputs _ hid
    obtain ⟨e, _, _, heq⟩ := hw.source _ _ hs
    have placed : w.place? r.node = some s.node := place?_of_source hs
    rw [hs]
    refine ⟨w, w.graph.stream s.node r.label r.selector, ?_, .refl w, hw, placed, rfl⟩
    rw [heq, label]
    exact congrArg (Except.map _) (narrowed_stream ..)
  | filter hid f hf =>
    have hs : Entries.find? r.node w.sources = none := by
      cases hs : Entries.find? r.node w.sources with
      | none => rfl
      | some s =>
        obtain ⟨e, he, _⟩ := hw.source _ s hs
        exact absurd (List.mem_map_of_mem he) hid
    obtain ⟨w', m, hbuilt, grows, hw', hm⟩ :=
      hb w path r.node f hw hid hf (hrank (by rw [hf]; rfl)) hpath
    rw [hs, hbuilt]
    refine ⟨w', w'.graph.stream m.node r.label r.selector, ?_, grows, hw',
      hw'.place?_of_filter hm, rfl⟩
    exact congrArg (Except.map _) (narrowed_stream ..)

/-- Addresses that name something are resolved one after the other. -/
theorem resolveAll_ok (hb : Builds d n rank b) (hw : Reflects d n w) (hrs : ∀ r ∈ rs, d.Names r)
    (hrank : ∀ r ∈ rs, (Entries.find? r.node d.filters).isSome → rank r.node < b)
    {path : List String} (hpath : ∀ x ∈ path, b ≤ rank x) :
    ∃ w' ss, resolveAll d.filters path w rs = .ok (w', ss) ∧ Grows rank b w w' ∧ Reflects d n w' ∧
      List.Forall₂ w'.Yields rs ss := by
  induction rs generalizing w with
  | nil => exact ⟨w, [], by rw [resolveAll], .refl w, hw, .nil⟩
  | cons r rs ih =>
    obtain ⟨w₁, s, hr, grows₁, hw₁, hy⟩ := resolve_ok hb hw (hrs r List.mem_cons_self)
      (hrank r List.mem_cons_self) hpath
    obtain ⟨w₂, ss, hrest, grows₂, hw₂, hys⟩ := ih hw₁ (fun r h => hrs r (List.mem_cons_of_mem _ h))
      (fun r h => hrank r (List.mem_cons_of_mem _ h))
    refine ⟨w₂, s :: ss, ?_, grows₁.trans grows₂, hw₂, .cons (hy.grow hw₁ grows₂) hys⟩
    rw [resolveAll, hr]
    exact congrArg (Except.map _) hrest

/-- **Every filter can be built.** The bound falls to the rank of the filter: its own references lie
below it, and it joins the path, which lies at or above it. -/
theorem builds (hfilters : ∀ r ∈ d.addresses, d.Names r)
    (hrank : ∀ id f, Entries.find? id d.filters = some f → ∀ r ∈ f.inputs,
      (Entries.find? r.node d.filters).isSome → rank r.node < rank id) (b : Nat) :
    Builds d n rank b := by
  induction b using Nat.strong_induction_on with
  | h b ih =>
    intro w path id f hw hid hf hb hpath
    cases hnew : Entries.find? id w.filters with
    | some m => exact ⟨w, m, by rw [Wiring.filter, hnew], .refl w, hw, hnew⟩
    | none =>
      have off : id ∉ path := fun h => absurd hb (Nat.not_lt.mpr (hpath id h))
      have names : ∀ r ∈ f.inputs, d.Names r := fun r hr =>
        hfilters r (List.mem_append_left _
          (List.mem_flatMap.mpr ⟨(id, f), Entries.mem_of_find? hf, hr⟩))
      have above : ∀ x ∈ path ++ [id], rank id ≤ rank x := fun x hx => by
        rcases List.mem_append.mp hx with hx | hx
        · exact Nat.le_of_lt (Nat.lt_of_lt_of_le hb (hpath x hx))
        · rw [List.mem_singleton.mp hx]
      obtain ⟨w', ss, hall, grows, hw', hy⟩ :=
        resolveAll_ok (ih (rank id) hb) hw names (hrank id f hf) above
      have still : Entries.find? id w'.filters = none := (grows.others id (Nat.le_refl _)).trans hnew
      obtain ⟨grows', hw'', hm⟩ := hw'.addFilter hid hf still hb hy
      refine ⟨_, _, ?_, (grows.mono (Nat.le_of_lt hb)).trans grows', hw'', hm⟩
      rw [filter_of_new hnew off hf, hall]
      rfl

/-- An output gives the stream of a sink with the entry's content, fed as its addresses say. -/
def Sinks (n : Nat) (w : Wiring) (o : OutputEntry) (s : Stream) : Prop :=
  n ≤ s.node ∧ s.node < w.graph.nodes.size ∧ s = w.graph.stream s.node "" none ∧
    ∃ ss, List.Forall₂ w.Yields o.inputs ss ∧
      w.graph.Holds s.node .sink "output" o.params.toParams (some o.path) (Feeds.ofStreams ss).edges

theorem Sinks.grow {o : OutputEntry} (h : Sinks n w o s) (hr : Reflects d n w)
    (hg : Grows rank b w w') : Sinks n w' o s := by
  obtain ⟨hn, hi, heq, ss, hy, holds⟩ := h
  refine ⟨hn, Nat.lt_of_lt_of_le hi hg.graph.size, ?_, ss, yields_grow hy hr hg,
    holds.extend hg.graph hi⟩
  rw [hg.graph.stream hi]
  exact heq

theorem addOutput_ok (hb : Builds d n rank b) (hrank : ∀ id, rank id < b) (hw : Reflects d n w)
    {o : OutputEntry} (ho : ∀ r ∈ o.inputs, d.Names r) :
    ∃ w' s, addOutput d.filters w o = .ok (w', s) ∧ Grows rank b w w' ∧ Reflects d n w' ∧
      Sinks n w' o s := by
  obtain ⟨w₁, ss, hall, grows, hw₁, hy⟩ :=
    resolveAll_ok hb hw ho (fun r _ _ => hrank r.node) (fun _ h => absurd h List.not_mem_nil)
  have step : Grows rank b w₁ (w₁.addSink o ss).1 := grows_graph extends_add
  refine ⟨_, (w₁.addSink o ss).2, ?_, grows.trans step, hw₁.add (hw₁.edges hy), hw₁.start,
    size_add .. ▸ Nat.lt_succ_self _, rfl, ss, yields_grow hy hw₁ step, holds_add⟩
  rw [addOutput, hall]
  rfl

/-- Outputs are added one after the other, and each gives its stream. -/
theorem addOutputs_ok (hb : Builds d n rank b) (hrank : ∀ id, rank id < b) (hw : Reflects d n w)
    {os : List OutputEntry} (hos : ∀ o ∈ os, ∀ r ∈ o.inputs, d.Names r) :
    ∃ w' ss, addOutputs d.filters w os = .ok (w', ss) ∧ Grows rank b w w' ∧ Reflects d n w' ∧
      List.Forall₂ (Sinks n w') os ss := by
  induction os generalizing w with
  | nil => exact ⟨w, [], rfl, .refl w, hw, .nil⟩
  | cons o os ih =>
    obtain ⟨w₁, s, ho, grows₁, hw₁, hs⟩ := addOutput_ok hb hrank hw (hos o List.mem_cons_self)
    obtain ⟨w₂, ss, hrest, grows₂, hw₂, hss⟩ := ih hw₁ fun o h => hos o (List.mem_cons_of_mem _ h)
    refine ⟨w₂, s :: ss, ?_, grows₁.trans grows₂, hw₂, .cons (hs.grow hw₁ grows₂) hss⟩
    rw [addOutputs, ho]
    exact congrArg (Except.map _) hrest

/-! ## 6. Documents -/

/-- What stands above nodes from place `n` on is from there on. -/
theorem Reflects.above (h : Reflects d n w) {ts : List NodeId}
    (hts : ∀ t ∈ ts, n ≤ t ∧ t < w.graph.nodes.size) {i : NodeId} (hi : w.graph.Above ts i) :
    n ≤ i ∧ i < w.graph.nodes.size := by
  induction hi with
  | terminal ht => exact hts _ ht
  | feeds _ he ih =>
    obtain ⟨hn, hlt, _⟩ := h.below _ ih.1 ih.2 _ he
    exact ⟨hn, Nat.lt_trans hlt ih.2⟩

/-- What stands above the outputs is fed from below, and not by a sink. -/
theorem Reflects.below_terminals (h : Reflects d n w) {os : List OutputEntry}
    (hss : List.Forall₂ (Sinks n w) os ss) {i : NodeId}
    (hi : w.graph.Above (w.graph.terminals ss) i) : ∀ e ∈ w.graph.incoming i,
      e.supply.node < i ∧ (w.graph.node e.supply.node).kind ≠ .sink := by
  have terminals : ∀ t ∈ w.graph.terminals ss, n ≤ t ∧ t < w.graph.nodes.size := by
    intro t ht
    obtain ⟨s, hs, rfl⟩ := List.mem_map.mp (Graph.mem_of_mem_distinct ht)
    obtain ⟨o, _, hn, hi, _⟩ := exists_mem_of_forall₂ hss.flip hs
    exact ⟨hn, hi⟩
  have place := h.above terminals hi
  exact fun e he => (h.below i place.1 place.2 e he).2

/-- Of the outcomes of a compilation, two are possible for what was built. -/
theorem Reflects.outcome (h : Reflects d n w) {os : List OutputEntry}
    (hss : List.Forall₂ (Sinks n w) os ss) (settings : Settings)
    (hc : w.graph.Collisionless (w.graph.terminals ss)) :
    (∃ args, w.graph.compile settings ss = .ok args ∧
        ¬ w.graph.SharesOutput (w.graph.terminals ss)) ∨
      ∃ t l cs, w.graph.compile settings ss = .error (.graph (.multipleConsumers t l cs)) ∧
        w.graph.SharesOutput (w.graph.terminals ss) := by
  have out : w.graph.Outcome settings ss := Graph.outcome_exists hc
  cases out with
  | cyclic u hcyclic _ =>
    exact absurd hcyclic (Graph.not_cyclic_of_fed_below hc.coherent fun i hi e he =>
      (h.below_terminals hss hi e he).1)
  | shared s T t l cs _ hshared _ heq => exact .inr ⟨t, l, cs, heq, hshared⟩
  | fedBySink u _ _ hfed _ =>
    obtain ⟨i, e, hi, _, he, hsink⟩ := hfed
    exact absurd hsink (h.below_terminals hss hi e he).2
  | vector args _ hunshared _ heq => exact .inl ⟨args, heq, hunshared⟩

/-- Unless digests collide, what was built has a command, or an output of a filter has several
consumers. -/
theorem Reflects.command_or_shared (h : Reflects d n w) {os : List OutputEntry}
    (hss : List.Forall₂ (Sinks n w) os ss) (settings : Settings)
    (hc : w.graph.Collisionless (w.graph.terminals ss)) :
    (∃ args, w.graph.compile settings ss = .ok args) ∨
      ∃ t l cs, w.graph.compile settings ss = .error (.graph (.multipleConsumers t l cs)) := by
  rcases h.outcome hss settings hc with ⟨args, heq, _⟩ | ⟨t, l, cs, heq, _⟩
  · exact .inl ⟨args, heq⟩
  · exact .inr ⟨t, l, cs, heq⟩

/-- Unless digests collide, what was built has a command when no output of a filter is shared, and only
then. -/
theorem Reflects.compiles_iff (h : Reflects d n w) {os : List OutputEntry}
    (hss : List.Forall₂ (Sinks n w) os ss) (settings : Settings)
    (hc : w.graph.Collisionless (w.graph.terminals ss)) :
    (∃ args, w.graph.compile settings ss = .ok args) ↔
      ¬ w.graph.SharesOutput (w.graph.terminals ss) := by
  rcases h.outcome hss settings hc with ⟨args, heq, unshared⟩ | ⟨t, l, cs, heq, shared⟩
  · exact ⟨fun _ => unshared, fun _ => ⟨args, heq⟩⟩
  · refine ⟨?_, fun unshared => absurd shared unshared⟩
    rintro ⟨args, ok⟩
    cases ok.symm.trans heq

end Wiring

open Wiring in
/-- A document that keeps the rules is added to a graph, with one sink for each of its outputs. -/
theorem Pipeline.exists_built (p : Pipeline) (g : Graph) :
    ∃ w ss, p.toGraph g = .ok (w.graph, ss) ∧ g.Extends w.graph ∧
      Reflects p.document g.nodes.size w ∧
      List.Forall₂ (Sinks g.nodes.size w) p.document.outputs ss := by
  obtain ⟨rank, b, hb, hrank⟩ := Document.exists_rank p.document_order
  have names := Document.names_of_order p.document_order
  have start := reflects_inputs p.document g
  obtain ⟨w, ss, hall, grows, hw, hss⟩ :=
    addOutputs_ok (builds names hrank b) hb start fun o ho r hr =>
      names r (List.mem_append_right _ (List.mem_flatMap.mpr ⟨o, ho, hr⟩))
  exact ⟨w, ss, congrArg (Except.map _) hall, (extends_inputs _ _).trans grows.graph, hw, hss⟩

open Wiring in
/-- **A document that keeps the rules is built**: there is one stream for each of its outputs, in
their order, each of a sink that the addresses of the output feed, and the ids that were needed
stand for nodes that are as the document says. Unless digests collide, the command is there, or an
output of a filter has several consumers. -/
theorem Pipeline.toGraph_succeeds (p : Pipeline) (g : Graph) :
    ∃ w ss, p.toGraph g = .ok (w.graph, ss) ∧ g.Extends w.graph ∧
      Reflects p.document g.nodes.size w ∧
      List.Forall₂ (Sinks g.nodes.size w) p.document.outputs ss ∧
      ∀ settings, w.graph.Collisionless (w.graph.terminals ss) →
        (∃ args, w.graph.compile settings ss = .ok args) ∨
        ∃ t l cs, w.graph.compile settings ss = .error (.graph (.multipleConsumers t l cs)) := by
  obtain ⟨w, ss, built, extended, hw, hss⟩ := p.exists_built g
  exact ⟨w, ss, built, extended, hw, hss, hw.command_or_shared hss⟩

/-- A document whose output takes the second output of a filter first. -/
def crossedDocument : Document where
  inputs := [("in", ⟨"in.mp4", default⟩)]
  filters := [("cut", ⟨"split", [⟨"in", "", none⟩], default⟩)]
  outputs := [⟨"out.mp4", [⟨"cut", "1", none⟩, ⟨"cut", "0", none⟩], default⟩]

theorem crossedDocument_order : crossedDocument.order = .ok ["cut"] := by
  refine Document.order_eq_ok_iff.mpr ⟨rfl, rfl, ?_⟩
  simp [Filters.order, Filters.visit, Filters.visitAll, crossedDocument, Entries.find?, Except.map]

open FilterGraph.Graph Wiring in
theorem crossedDocument_toGraph :
    Pipeline.toGraph ⟨crossedDocument, ["cut"], crossedDocument_order⟩ .empty =
      .ok (crossed, [crossed.stream 2 "" none]) := by
  simp [Pipeline.toGraph, crossedDocument, addOutputs, addOutput, resolveAll, resolve,
    Wiring.filter, addInput, addFilter, addSink, narrowed, Entries.find?, Entries.set,
    Entries.modify, Except.map]
  exact ⟨rfl, rfl⟩

open FilterGraph.Graph in
/-- The document is built as the graph of the same name. -/
theorem Pipeline.toGraph_succeeds_crossed :
    Pipeline.toGraph ⟨crossedDocument, ["cut"], crossedDocument_order⟩ .empty =
        .ok (crossed, [crossed.stream 2 "" none]) ∧
      crossed.Collisionless (crossed.terminals [crossed.stream 2 "" none]) ∧
      ((∃ args, crossed.compile .standard [crossed.stream 2 "" none] = .ok args) ∨
        ∃ t l cs, crossed.compile .standard [crossed.stream 2 "" none] =
          .error (.graph (.multipleConsumers t l cs))) := by
  have hc : crossed.Collisionless (crossed.terminals [crossed.stream 2 "" none]) :=
    crossed_collisionless (by rw [crossed_eq]; decide)
  obtain ⟨w, ss, hb, _, _, _, command⟩ :=
    Pipeline.toGraph_succeeds ⟨crossedDocument, ["cut"], crossedDocument_order⟩ .empty
  obtain ⟨graph, streams⟩ := Prod.mk.inj (Except.ok.inj (hb.symm.trans crossedDocument_toGraph))
  rw [graph, streams] at command
  exact ⟨crossedDocument_toGraph, hc, command .standard hc⟩

end FilterGraph
