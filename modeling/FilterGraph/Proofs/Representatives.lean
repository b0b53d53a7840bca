import FilterGraph.Proofs.EqualNodes
import FilterGraph.Proofs.Images

/-!
# Which of several equal nodes is kept

The sort keeps the first node it meets of each number. This file says when it does not matter which
one that is.

* `Graph.redirect`: the graph in which every edge comes from the node that stands for its supplier;
* `Graph.Choice`: one node that stands for the others of its number;
* `Built.carries_redirect`: where equal nodes have their options and labels in one order, the graph
  stands inside the redirected one;
* **`equal_nodes_are_interchangeable`**: nodes of one number are rendered alike up to the order of
  references and options, identically where these stand in one order, and then any choice of
  representatives compiles to the same vector;
* `equal_nodes_render_differently`: without one order it does matter.
-/

namespace FilterGraph.Graph

variable {g : Graph} {ρ : NodeId → NodeId} {i j : NodeId}

/-! ## 1. Redirecting edges -/

/-- Every edge comes from the node that stands for its supplier; numbers and contents stay. -/
def redirect (g : Graph) (ρ : NodeId → NodeId) : Graph :=
  ⟨g.nodes.map fun n => { n with
    inputs := n.inputs.map (Incoming.via ρ), feedback := n.feedback.map (Incoming.via ρ) }⟩

/-- A choice of nodes that stand for others of their number. What feeds a node and the one that
stands for it, by edges of one label, is stood for by one node. -/
structure Choice (g : Graph) (ρ : NodeId → NodeId) : Prop where
  inside : ∀ i < g.nodes.size, ρ i < g.nodes.size
  outside : ∀ i, ¬ i < g.nodes.size → ρ i = i
  hash : ∀ i < g.nodes.size, g.hash (ρ i) = g.hash i
  one : ∀ i < g.nodes.size, ∀ e ∈ g.incoming i, ∀ e' ∈ g.incoming (ρ i), e.label = e'.label →
    ρ e.supply.node = ρ e'.supply.node

theorem node_redirect (i : NodeId) : (g.redirect ρ).node i = { g.node i with
    inputs := (g.node i).inputs.map (Incoming.via ρ),
    feedback := (g.node i).feedback.map (Incoming.via ρ) } := by
  unfold node redirect
  by_cases hi : i < g.nodes.size
  · simp [Array.getD, hi]
  · simp [Array.getD, hi]
    rfl

theorem incoming_redirect (i : NodeId) :
    (g.redirect ρ).incoming i = (g.incoming i).map (Incoming.via ρ) := by
  rw [incoming, node_redirect, incoming, Node.incoming, Node.incoming, List.map_append]

/-- Led to the nodes that stand for their suppliers, the edges of a node are the edges of the one
that stands for it. -/
theorem Built.incoming_via_eq (hb : g.Built) {i : NodeId} (hi : i < g.nodes.size)
    (hρ : g.Choice ρ) (same : g.SameNode i (ρ i)) (order : g.SameOrder i (ρ i)) :
    (g.incoming i).map (Incoming.via ρ) = (g.incoming (ρ i)).map (Incoming.via ρ) := by
  have terms := (hb.numbered hi).map_incoming_eq g.term Identity.Term.label (fun _ => rfl)
    same.fed order.labels
  rw [← List.forall₂_eq_eq_eq, List.forall₂_map_left_iff, List.forall₂_map_right_iff] at terms
  refine map_eq_of_forall₂ (forall₂_and_mem terms) fun e _ e' he => ?_
  obtain ⟨⟨mem, mem'⟩, term⟩ := he
  have label : e.label = e'.label := congrArg Identity.Term.label term
  have supplier := hρ.one i hi e mem e' mem' label
  have output : e.supply.label = e'.supply.label := congrArg Identity.Term.supplierLabel term
  have selector : e.supply.selector = e'.supply.selector := congrArg Identity.Term.selector term
  rw [Incoming.via, Incoming.via, Supply.via, Supply.via, label, supplier, output, selector]

/-- **A graph stands inside the redirected one**, where nodes and those that stand for them have
their options and labels in one order. -/
theorem Built.carries_redirect (hb : g.Built) (hρ : g.Choice ρ)
    (hs : ∀ i < g.nodes.size, g.NoCollision i (ρ i) ∧ g.SameOrder i (ρ i)) :
    g.Carries (g.redirect ρ) ρ := by
  have same : ∀ i, g.SameNode i (ρ i) := by
    intro i
    by_cases hi : i < g.nodes.size
    · exact hb.sameNode hi (hρ.inside i hi) (hs i hi).1 (hρ.hash i hi).symm
    · exact sameNode_of_node_eq (by rw [hρ.outside i hi])
  constructor
  · intro i
    rw [hash, node_redirect]
    by_cases hi : i < g.nodes.size
    · exact hρ.hash i hi
    · rw [hρ.outside i hi]
      rfl
  · intro i
    rw [node_redirect]
    exact (same i).kind.symm
  · intro i
    rw [node_redirect]
    exact (same i).name.symm
  · intro i
    rw [node_redirect]
    by_cases hi : i < g.nodes.size
    · exact (hb.params_eq hi (same i) (hs i hi).2).symm
    · rw [hρ.outside i hi]
  · intro i
    rw [node_redirect]
    exact (same i).path.symm
  · intro i
    rw [incoming_redirect]
    by_cases hi : i < g.nodes.size
    · exact (hb.incoming_via_eq hi hρ (same i) (hs i hi).2).symm
    · rw [hρ.outside i hi]

/-- **A choice by number is a choice**: whatever feeds a node and the one that stands for it in the
same place has one number. -/
theorem Built.choice_of_number (hb : g.Built) (inside : ∀ i < g.nodes.size, ρ i < g.nodes.size)
    (outside : ∀ i, ¬ i < g.nodes.size → ρ i = i)
    (hash : ∀ i < g.nodes.size, g.hash (ρ i) = g.hash i)
    (number : ∀ i < g.nodes.size, ∀ j < g.nodes.size, g.hash i = g.hash j → ρ i = ρ j)
    (hn : ∀ i < g.nodes.size, g.NoCollision i (ρ i)) : g.Choice ρ := by
  refine ⟨inside, outside, hash, fun i hi e he e' he' label => ?_⟩
  have fed := (hb.sameNode hi (inside i hi) (hn i hi) (hash i hi).symm).fed
  obtain ⟨e'', he'', term⟩ := List.mem_map.mp (fed.subset (List.mem_map_of_mem he))
  -- the counterpart of `e` has the label of `e'`, so it is `e'`
  have same : e'' = e' := List.inj_on_of_nodup_map (hb.numbered (inside i hi)).labels he'' he'
    ((congrArg Identity.Term.label term).trans label)
  have supplier : g.hash e'.supply.node = g.hash e.supply.node :=
    same ▸ congrArg Identity.Term.supplier term
  exact number _ (Nat.lt_trans ((hb.numbered hi).suppliers e he) hi) _
    (Nat.lt_trans ((hb.numbered (inside i hi)).suppliers e' he') (inside i hi)) supplier.symm

/-! ## 2. Twins -/

/-- Adds a filter that joins two streams. -/
def addJoin (g : Graph) (options : List (String × String)) (inputs : List Incoming) : Graph :=
  (g.add .transform "concat" (.options options) none inputs).1

/-- A source that was built twice; a filter over the first, and the same filter over the second; the
first filter with its options, and with its edges, in another order; and a sink. -/
def twins : Graph :=
  let g := (empty.add .source "input" (.options []) (some "in.mp4") []).1
  let g := (g.add .source "input" (.options []) (some "in.mp4") []).1
  let g := g.addJoin [("n", "1"), ("v", "1"), ("a", "1")]
    [⟨"0", ⟨0, "", some .video⟩⟩, ⟨"1", ⟨0, "", some .audio⟩⟩]
  let g := g.addJoin [("n", "1"), ("v", "1"), ("a", "1")]
    [⟨"0", ⟨1, "", some .video⟩⟩, ⟨"1", ⟨1, "", some .audio⟩⟩]
  let g := g.addJoin [("a", "1"), ("v", "1"), ("n", "1")]
    [⟨"0", ⟨0, "", some .video⟩⟩, ⟨"1", ⟨0, "", some .audio⟩⟩]
  let g := g.addJoin [("n", "1"), ("v", "1"), ("a", "1")]
    [⟨"1", ⟨0, "", some .audio⟩⟩, ⟨"0", ⟨0, "", some .video⟩⟩]
  (g.add .sink "output" (.options []) (some "out.mp4") [⟨"", ⟨2, "", none⟩⟩]).1

theorem twins_built : twins.Built := by
  unfold twins addJoin
  iterate 7 refine .add ?_ _ _ _ _ _ (by decide) (by decide) (by decide)
  exact .empty

/-- The second filter has the same edges from the second source. -/
theorem twins_texts_copy : (twins.texts 2).Perm (twins.texts 3) := .of_eq rfl

/-- Options in another order have the same text. -/
theorem twins_texts_options : (twins.texts 2).Perm (twins.texts 4) := by
  have content : (Identity.contentJson .transform "concat"
        (.options [("n", "1"), ("v", "1"), ("a", "1")]) none).canonical =
      (Identity.contentJson .transform "concat"
        (.options [("a", "1"), ("v", "1"), ("n", "1")]) none).canonical := by cbv
  exact .of_eq (congrArg (List.cons · _) content)

/-- Edges in another order have the same texts in another order. -/
theorem twins_texts_edges : (twins.texts 2).Perm (twins.texts 5) :=
  (List.Perm.swap _ _ _).cons _

/-- Nothing collides between filters of the same texts that only the first source feeds. -/
theorem twins_uncollided (hi : ∀ e ∈ twins.incoming i, e.supply.node = 0)
    (hj : ∀ e ∈ twins.incoming j, e.supply.node = 0) (h : (twins.texts i).Perm (twins.texts j)) :
    twins.Uncollided i j := by
  refine ⟨fun _ => h, fun e he e' he' _ => ?_⟩
  rw [hi e he, hj e' he']
  exact noCollision_refl twins 0

/-- The names when the first source is the only input. -/
def twinsNames : StreamNames := StreamNames.empty.place (twins.hash 0) 0

/-- The statement of a filter whose output nobody takes and that only the first source feeds. -/
theorem twins_statement (hi : ∀ e ∈ twins.incoming i, e.supply.node = 0) :
    twins.statement .empty twinsNames i =
      .ok ⟨(twins.incoming i).map fun e => ⟨"0", e.supply.selector, false⟩,
        filterExpression (twins.node i).name (twins.node i).params, []⟩ := by
  refine statement_eq_ok_iff.mpr ⟨?_, rfl, .nil⟩
  rw [List.forall₂_map_right_iff, List.forall₂_same]
  intro e he
  refine reference_eq_ok_iff.mpr ⟨"0", ?_, rfl⟩
  rw [hi e he, twinsNames, StreamNames.name?, StreamNames.place, Entries.find?_set, if_pos rfl]
  rfl

/-- The second source stands for the first, and the filter over it for the one over the first. -/
def twinsChoice (i : NodeId) : NodeId := if i = 0 then 1 else if i = 2 then 3 else i

theorem twins_choice_cases (P : NodeId → NodeId → Prop) (source : P 0 1) (filter : P 2 3)
    (other : ∀ i, P i i) (i : NodeId) : P i (twinsChoice i) := by
  unfold twinsChoice
  split
  · rename_i h
    exact h ▸ source
  split
  · rename_i h
    exact h ▸ filter
  · exact other i

theorem twins_choice : twins.Choice twinsChoice := by
  constructor
  · decide
  · intro i hi
    have size : twins.nodes.size = 7 := rfl
    have first : i ≠ 0 := by omega
    have second : i ≠ 2 := by omega
    rw [twinsChoice, if_neg first, if_neg second]
  · intro i _
    refine twins_choice_cases (fun i j => twins.hash j = twins.hash i) rfl ?_ (fun _ => rfl) i
    exact (twins_built.hash_eq_of_perm (by decide) (by decide) twins_texts_copy).symm
  · decide

/-! ## 3. Equal nodes -/

/-- **Equal nodes are interchangeable up to order.** Nodes of one number are the same node and are
rendered alike up to the order of references and options, and identically where options and labels
stand in one order; labels do for nodes that were built from rows of streams. Where every node and
the one that stands for it have one order, the graph compiles to the same vector whichever nodes
stand for the others. -/
theorem equal_nodes_are_interchangeable (hb : g.Built) :
    (∀ i j, i < g.nodes.size → j < g.nodes.size → g.Uncollided i j → g.hash i = g.hash j →
      g.SameNode i j ∧
      g.RenderedAs InputFragment.Reordered Statement.Reordered OutputFragment.Reordered i j ∧
      (g.SameOrder i j → g.RenderedAs (· = ·) (· = ·) (· = ·) i j) ∧
      ∀ p q, g.BuiltFrom i p → g.BuiltFrom j q → g.labels i = g.labels j) ∧
    ∀ ρ, g.Choice ρ →
      (∀ i < g.nodes.size, g.NoCollision i (ρ i) ∧ g.SameOrder i (ρ i)) →
      ∀ settings streams, (g.redirect ρ).compile settings (streams.map (Stream.via ρ)) =
        (g.compile settings streams).mapError (CompileError.via ρ) := by
  constructor
  · intro i j hi hj hn h
    have same := hb.sameNode hi hj hn.nodes h
    exact ⟨same, hb.reordered hi hj hn h, hb.identical hi hj hn h,
      fun p q hp hq => same.labels_eq_of_builtFrom hp hq⟩
  · intro ρ hρ hs settings streams
    exact (hb.carries_redirect hρ hs).compile_via settings streams

/-- The filter over the first source, and the one with its edges in another order, are rendered
alike; and the sink compiles to the same vector when the second source and the filter over it stand
for the first. -/
theorem equal_nodes_are_interchangeable_twins :
    twins.Built ∧ twins.Uncollided 2 5 ∧ twins.hash 2 = twins.hash 5 ∧
      twins.RenderedAs InputFragment.Reordered Statement.Reordered OutputFragment.Reordered 2 5 ∧
      twins.Choice twinsChoice ∧
      (∀ i < twins.nodes.size,
        twins.NoCollision i (twinsChoice i) ∧ twins.SameOrder i (twinsChoice i)) ∧
      (twins.redirect twinsChoice).compile .standard [twins.stream 6 "" none] =
        (twins.compile .standard [twins.stream 6 "" none]).mapError
          (CompileError.via twinsChoice) := by
  have two : ∀ e ∈ twins.incoming 2, e.supply.node = 0 := by decide
  have five : ∀ e ∈ twins.incoming 5, e.supply.node = 0 := by decide
  have uncollided := twins_uncollided two five twins_texts_edges
  have number := twins_built.hash_eq_of_perm (by decide) (by decide) twins_texts_edges
  have alike : ∀ i < twins.nodes.size,
      twins.NoCollision i (twinsChoice i) ∧ twins.SameOrder i (twinsChoice i) := fun i _ =>
    twins_choice_cases (fun i j => twins.NoCollision i j ∧ twins.SameOrder i j)
      ⟨fun _ => .of_eq rfl, rfl, rfl⟩ ⟨fun _ => twins_texts_copy, rfl, rfl⟩
      (fun i => ⟨noCollision_refl twins i, rfl, rfl⟩) i
  obtain ⟨pairs, choices⟩ := equal_nodes_are_interchangeable twins_built
  exact ⟨twins_built, uncollided, number,
    (pairs 2 5 (by decide) (by decide) uncollided number).2.1, twins_choice, alike,
    choices twinsChoice twins_choice alike .standard [twins.stream 6 "" none]⟩

/-- **Equal nodes can be rendered differently**: their numbers see neither the order of options nor
that of edges, a statement shows both. -/
theorem equal_nodes_render_differently :
    twins.Built ∧ (twins.Uncollided 2 4 ∧ twins.hash 2 = twins.hash 4) ∧
      (twins.Uncollided 2 5 ∧ twins.hash 2 = twins.hash 5) ∧
      (twins.statement .empty twinsNames 2).map Statement.text =
        .ok "[0:v][0:a]concat=n=1:v=1:a=1" ∧
      (twins.statement .empty twinsNames 4).map Statement.text =
        .ok "[0:v][0:a]concat=a=1:v=1:n=1" ∧
      (twins.statement .empty twinsNames 5).map Statement.text =
        .ok "[0:a][0:v]concat=n=1:v=1:a=1" := by
  have two : ∀ e ∈ twins.incoming 2, e.supply.node = 0 := by decide
  have four : ∀ e ∈ twins.incoming 4, e.supply.node = 0 := by decide
  have five : ∀ e ∈ twins.incoming 5, e.supply.node = 0 := by decide
  refine ⟨twins_built, ⟨twins_uncollided two four twins_texts_options, ?_⟩,
    ⟨twins_uncollided two five twins_texts_edges, ?_⟩, ?_, ?_, ?_⟩
  · exact twins_built.hash_eq_of_perm (by decide) (by decide) twins_texts_options
  · exact twins_built.hash_eq_of_perm (by decide) (by decide) twins_texts_edges
  · rw [twins_statement two]
    rfl
  · rw [twins_statement four]
    rfl
  · rw [twins_statement five]
    rfl

end FilterGraph.Graph
