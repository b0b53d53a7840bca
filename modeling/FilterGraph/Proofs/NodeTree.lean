import FilterGraph.Proofs.EqualNodes
import FilterGraph.Proofs.UniqueText

/-!
# Nodes as trees

A node with all that is above it is a tree, in which a shared node stands once for each edge that it
feeds. The number of a node is a function of this tree, and of the tree up to order.

* `GivenParams`: parameters as a caller gives them, with their reading as texts;
* `Tree`, `Tree.induction`: trees, and the induction that has its hypothesis for every branch;
* `Tree.number`: the number of a tree, by recursion, for any digest of texts;
* `Tree.SameAs`: trees that differ at most in the order of options and of edges, at any depth, and in
  how parameters of one text were given;
* `Graph.Unfolds`, `Graph.Represents`: the tree of a node; `Built.exists_represents`: every node of a
  built graph has one; `Represents.hash_eq`: and its number;
* **`number_eq_of_sameAs`**: trees that are the same have one number, and so have streams of one label
  on the nodes.
-/

namespace FilterGraph

/-! ## 1. Trees -/

/-- Parameters as a caller gives them: a value that can be read as parameters, in which no option is
named twice. -/
structure GivenParams where
  value : Json
  params : Params
  reading : Params.ofJson value = .ok params
  names : params.names.Nodup

/-- Texts can be given for any parameters. -/
theorem Params.exists_given {params : Params} (h : params.names.Nodup) :
    ∃ p : GivenParams, p.params = params := by
  cases params with
  | options entries =>
    have texts : (entries.map fun e => (e.1, Json.string e.2)).map (fun m => (m.1, m.2.text)) =
        entries := by
      rw [List.map_map]
      exact List.map_id entries
    refine ⟨⟨.object (entries.map fun e => (e.1, .string e.2)), .options entries, ?_, h⟩, rfl⟩
    rw [ofJson, texts]
  | literals args =>
    have texts : (args.map Json.string).map Json.text = args := by
      rw [List.map_map]
      exact List.map_id args
    refine ⟨⟨.array (args.map .string), .literals args, ?_, h⟩, rfl⟩
    rw [ofJson, texts]

/-- What an edge says of itself: its label on the node that it enters, and the label and the component
that it takes. -/
structure Tap where
  label : Label
  supplierLabel : Label
  selector : Option Selector
  deriving DecidableEq, Repr

/-- The term of an edge whose supplier has a number. -/
def Tap.term (tap : Tap) (supplier : Digest) : Identity.Term :=
  ⟨tap.label, supplier, tap.supplierLabel, tap.selector⟩

/-- What an edge of a graph says of itself. -/
def Incoming.tap (e : Incoming) : Tap := ⟨e.label, e.supply.label, e.supply.selector⟩

/-- A node with all that is above it. -/
inductive Tree where
  | node (kind : NodeKind) (name : String) (params : GivenParams) (path : Option String)
      (branches : List (Tap × Tree))

namespace Tree

variable {t t' : Tree}

mutual

/-- What holds of a node when it holds of all its branches holds of every tree. -/
theorem induction {motive : Tree → Prop}
    (node : ∀ kind name params path branches, (∀ b ∈ branches, motive b.2) →
      motive (.node kind name params path branches)) : ∀ t, motive t
  | .node kind name params path branches =>
    node kind name params path branches (induction_branches node branches)

theorem induction_branches {motive : Tree → Prop}
    (node : ∀ kind name params path branches, (∀ b ∈ branches, motive b.2) →
      motive (.node kind name params path branches)) :
    ∀ (branches : List (Tap × Tree)), ∀ b ∈ branches, motive b.2
  | [], _, hb => nomatch hb
  | (tap, t) :: rest, b, hb => by
    rcases List.mem_cons.mp hb with rfl | hb
    · exact induction node t
    · exact induction_branches node rest b hb

end

/-! ## 2. Numbers -/

mutual

/-- The number of the node at the root. -/
def number (digest : String → Digest) : Tree → Digest
  | .node kind name params path branches =>
    Identity.node (fun v => digest v.canonical) kind name params.params path (terms digest branches)

/-- The terms of the edges that branches are on. -/
def terms (digest : String → Digest) : List (Tap × Tree) → List Identity.Term
  | [] => []
  | (tap, t) :: rest => tap.term (number digest t) :: terms digest rest

end

/-- The number of an output of the node at the root. -/
def outputNumber (digest : String → Digest) (t : Tree) (label : Label) : Digest :=
  Identity.output (fun v => digest v.canonical) (t.number digest) label

theorem terms_eq_map (digest : String → Digest) (branches : List (Tap × Tree)) :
    terms digest branches = branches.map fun b => b.1.term (b.2.number digest) := by
  induction branches with
  | nil => rfl
  | cons b rest ih => rw [terms, ih, List.map_cons]

/-- Edges and the numbers of trees, side by side, give the terms. -/
theorem terms_eq_zipWith (digest : String → Digest) (branches : List (Tap × Tree)) :
    terms digest branches =
      List.zipWith Tap.term (branches.map (·.1)) (branches.map (·.2.number digest)) := by
  rw [terms_eq_map, List.zipWith_map, List.zipWith_self]

/-! ## 3. Trees up to order -/

/-- Trees that differ at most in the order of options and of edges, at any depth. Of parameters only
the texts count, and literal arguments have to stand in one order. -/
inductive SameAs : Tree → Tree → Prop where
  | node {kind : NodeKind} {name : String} {path : Option String} {params params' : GivenParams}
      {branches row branches' : List (Tap × Tree)} (same : params.params.SameAs params'.params)
      (perm : branches.Perm row) (taps : row.map (·.1) = branches'.map (·.1))
      (trees : List.Forall₂ SameAs (row.map (·.2)) (branches'.map (·.2))) :
      SameAs (.node kind name params path branches) (.node kind name params' path branches')

/-- **Trees that are the same have one number.** -/
theorem number_eq (digest : String → Digest) (h : t.SameAs t') :
    t.number digest = t'.number digest := by
  induction t using Tree.induction generalizing t' with
  | node kind name params path branches ih =>
    cases h with
    | @node _ _ _ _ params' _ row branches' same perm taps trees =>
      have numbers : row.map (·.2.number digest) = branches'.map (·.2.number digest) := by
        rw [List.forall₂_map_left_iff, List.forall₂_map_right_iff] at trees
        exact map_eq_of_forall₂ trees fun b hb b' hbb' => ih b (perm.mem_iff.mpr hb) hbb'
      rw [number, number]
      refine Identity.node_congr same params.names ?_
      rw [terms_eq_zipWith digest branches', ← taps, ← numbers, ← terms_eq_zipWith, terms_eq_map,
        terms_eq_map]
      exact perm.map _

end Tree

/-! ## 4. The tree of a node -/

namespace Graph

variable {g g' : Graph} {i : NodeId} {t : Tree}

/-- A node with all that is above it is a tree. -/
inductive Unfolds (g : Graph) : NodeId → Tree → Prop where
  | node {i : NodeId} {params : GivenParams} {branches : List (Tap × Tree)}
      (given : (g.node i).params = params.params)
      (taps : (g.incoming i).map Incoming.tap = branches.map (·.1))
      (trees : List.Forall₂ (Unfolds g) ((g.incoming i).map (·.supply.node)) (branches.map (·.2))) :
      Unfolds g i (.node (g.node i).kind (g.node i).name params (g.node i).path branches)

/-- A tree is that of a node of a built graph. -/
structure Represents (g : Graph) (i : NodeId) (t : Tree) : Prop where
  built : g.Built
  inside : i < g.nodes.size
  unfolds : g.Unfolds i t

/-- **Every node of a built graph has a tree.** -/
theorem Built.exists_represents (hb : g.Built) (hi : i < g.nodes.size) : ∃ t, g.Represents i t := by
  induction i using Nat.strong_induction_on with
  | h i ih =>
    have numbered := hb.numbered hi
    obtain ⟨params, given⟩ := Params.exists_given numbered.names
    have above : ∀ j ∈ (g.incoming i).map (·.supply.node), ∃ t, g.Unfolds j t := by
      intro j hj
      obtain ⟨e, he, rfl⟩ := List.mem_map.mp hj
      have below := numbered.suppliers e he
      obtain ⟨t, ht⟩ := ih _ below (Nat.lt_trans below hi)
      exact ⟨t, ht.unfolds⟩
    obtain ⟨trees, htrees⟩ := exists_forall₂_of_forall above
    have length : ((g.incoming i).map Incoming.tap).length = trees.length := by
      rw [← htrees.length_eq, List.length_map, List.length_map]
    refine ⟨.node _ _ params _ (((g.incoming i).map Incoming.tap).zip trees), hb, hi,
      .node given.symm ?_ ?_⟩
    · exact (List.map_fst_zip (Nat.le_of_eq length)).symm
    · rw [List.map_snd_zip (Nat.le_of_eq length.symm)]
      exact htrees

/-- **The number of a node is the number of its tree.** -/
theorem Represents.hash_eq (h : g.Represents i t) : g.hash i = t.number Digest.ofText := by
  obtain ⟨hb, hi, hu⟩ := h
  induction t using Tree.induction generalizing i with
  | node kind name params path branches ih =>
    cases hu with
    | node given taps trees =>
      have numbered := hb.numbered hi
      have numbers : (g.incoming i).map (fun e => g.hash e.supply.node) =
          branches.map (·.2.number Digest.ofText) := by
        rw [List.forall₂_map_left_iff, List.forall₂_map_right_iff] at trees
        refine map_eq_of_forall₂ (forall₂_and_mem trees) fun e he b heb => ?_
        have below := Nat.lt_trans (numbered.suppliers e he) hi
        exact ih b heb.1.2 below heb.2
      have terms : (g.incoming i).map g.term = Tree.terms Digest.ofText branches := by
        rw [Tree.terms_eq_zipWith, ← taps, ← numbers, List.zipWith_map, List.zipWith_self]
        rfl
      rw [numbered.number, terms, given]
      rfl

end Graph

/-! ## 5. Nodes of the same tree -/

namespace Tree

/-- **Trees that are the same have one number**, whatever the digest, and so have the outputs of one
label. Nodes with these trees, in whatever graphs, have one number, and so have the streams of one
label that are taken from them. -/
theorem number_eq_of_sameAs {t t' : Tree} (h : t.SameAs t') :
    (∀ digest : String → Digest, t.number digest = t'.number digest ∧
      ∀ label, t.outputNumber digest label = t'.outputNumber digest label) ∧
    ∀ (g g' : Graph) (s s' : Stream), g.Represents s.node t → g'.Represents s'.node t' →
      g.hash s.node = g'.hash s'.node ∧
        (s.label = s'.label → g.streamHash s = g'.streamHash s') := by
  refine ⟨fun digest => ?_, fun g g' s s' hs hs' => ?_⟩
  · have number := number_eq digest h
    refine ⟨number, fun label => ?_⟩
    rw [outputNumber, outputNumber, number]
  · have hash : g.hash s.node = g'.hash s'.node := by
      rw [hs.hash_eq, hs'.hash_eq, number_eq _ h]
    refine ⟨hash, fun label => ?_⟩
    rw [Graph.streamHash, Graph.streamHash, hash, label]

/-- Options of a source, a number and a text. -/
def trimmed : GivenParams :=
  ⟨.object [("ss", .int 1), ("t", .string "5")], .options [("ss", "1"), ("t", "5")], rfl, by decide⟩

/-- The same options in another order, a text and a number. -/
def trimmedTurned : GivenParams :=
  ⟨.object [("t", .int 5), ("ss", .string "1")], .options [("t", "5"), ("ss", "1")], rfl, by decide⟩

/-- No options. -/
def plain : GivenParams := ⟨.null, .options [], rfl, by decide⟩

/-- A sink fed by a filter that is fed by two sources. -/
def overlaid : Tree :=
  .node .sink "output" plain (some "out.mp4")
    [(⟨"", "", none⟩, .node .transform "overlay" plain none
      [(⟨"0", "", some .video⟩, .node .source "input" trimmed (some "a.mp4") []),
        (⟨"1", "", none⟩, .node .source "input" plain (some "b.mp4") [])])]

/-- The same with the edges of the filter and the options of a source in another order. -/
def overlaidTurned : Tree :=
  .node .sink "output" plain (some "out.mp4")
    [(⟨"", "", none⟩, .node .transform "overlay" plain none
      [(⟨"1", "", none⟩, .node .source "input" plain (some "b.mp4") []),
        (⟨"0", "", some .video⟩, .node .source "input" trimmedTurned (some "a.mp4") [])])]

theorem overlaid_sameAs : overlaid.SameAs overlaidTurned := by
  have sources : SameAs (.node .source "input" trimmed (some "a.mp4") [])
      (.node .source "input" trimmedTurned (some "a.mp4") []) :=
    .node (List.Perm.swap _ _ _) (.refl _) rfl .nil
  have plains : SameAs (.node .source "input" plain (some "b.mp4") [])
      (.node .source "input" plain (some "b.mp4") []) :=
    .node (Params.sameAs_refl _) (.refl _) rfl .nil
  exact .node (Params.sameAs_refl _) (.refl _) rfl
    (.cons (.node (Params.sameAs_refl _) (.swap _ _ _) rfl (.cons plains (.cons sources .nil))) .nil)

/-- The nodes of the one tree, in a graph. -/
def overlaidGraph : Graph :=
  let (g, a) := Graph.empty.source (some "a.mp4") trimmed.params
  let (g, b) := g.source (some "b.mp4") plain.params
  let (g, i) := g.add .transform "overlay" plain.params none
    [⟨"0", ⟨a.node, "", some .video⟩⟩, ⟨"1", b.supply⟩]
  (g.output (.one (g.stream i "" none)) (some "out.mp4") plain.params).1

/-- The nodes of the other, in another graph. -/
def overlaidTurnedGraph : Graph :=
  let (g, b) := Graph.empty.source (some "b.mp4") plain.params
  let (g, a) := g.source (some "a.mp4") trimmedTurned.params
  let (g, i) := g.add .transform "overlay" plain.params none
    [⟨"1", b.supply⟩, ⟨"0", ⟨a.node, "", some .video⟩⟩]
  (g.output (.one (g.stream i "" none)) (some "out.mp4") plain.params).1

theorem overlaidGraph_represents : overlaidGraph.Represents 3 overlaid := by
  refine ⟨?_, by decide, ?_⟩
  · have filtered := ((Graph.Built.empty.source trimmed.names (some "a.mp4")).source plain.names
      (some "b.mp4")).add .transform "overlay" plain.params none
        [⟨"0", ⟨0, "", some .video⟩⟩, ⟨"1", ⟨1, "", none⟩⟩] plain.names (by decide) (by decide)
    exact filtered.output plain.names (by decide) _
  · exact .node rfl rfl (.cons (.node rfl rfl (.cons (.node rfl rfl .nil)
      (.cons (.node rfl rfl .nil) .nil))) .nil)

theorem overlaidTurnedGraph_represents : overlaidTurnedGraph.Represents 3 overlaidTurned := by
  refine ⟨?_, by decide, ?_⟩
  · have filtered := ((Graph.Built.empty.source plain.names (some "b.mp4")).source trimmedTurned.names
      (some "a.mp4")).add .transform "overlay" plain.params none
        [⟨"1", ⟨0, "", none⟩⟩, ⟨"0", ⟨1, "", some .video⟩⟩] plain.names (by decide) (by decide)
    exact filtered.output plain.names (by decide) _
  · exact .node rfl rfl (.cons (.node rfl rfl (.cons (.node rfl rfl .nil)
      (.cons (.node rfl rfl .nil) .nil))) .nil)

/-- A stream that is taken from the sink of either graph. -/
def onSink : Stream := ⟨.output, 3, "v", none⟩

/-- The sinks of the two graphs, and the streams on them, have one number each. -/
theorem number_eq_of_sameAs_overlaid : overlaid.SameAs overlaidTurned ∧
    overlaidGraph.Represents onSink.node overlaid ∧
    overlaidTurnedGraph.Represents onSink.node overlaidTurned ∧
    overlaid.number Digest.ofText = overlaidTurned.number Digest.ofText ∧
    overlaidGraph.hash onSink.node = overlaidTurnedGraph.hash onSink.node ∧
    overlaidGraph.streamHash onSink = overlaidTurnedGraph.streamHash onSink := by
  obtain ⟨trees, nodes⟩ := number_eq_of_sameAs overlaid_sameAs
  obtain ⟨hash, streams⟩ := nodes _ _ onSink onSink overlaidGraph_represents
    overlaidTurnedGraph_represents
  exact ⟨overlaid_sameAs, overlaidGraph_represents, overlaidTurnedGraph_represents,
    (trees Digest.ofText).1, hash, streams rfl⟩

end Tree

end FilterGraph
