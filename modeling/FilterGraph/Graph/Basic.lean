import FilterGraph.Graph.Identity

/-!
# Pipeline graphs

A graph is a growing table of nodes; a node is referred to by its place. A node carries its
incoming edges, each with the label it has on this node and the stream that feeds it. Nodes do not
change once they are added, with one exception: `Graph.feedBack` appends an edge to a node that is
there, which can close a cycle; the node's structural number keeps the value it was given.

* `Graph.add` is the only way in: the number of the new node is computed from the numbers of the
  nodes above it;
* a place outside the table reads as an empty node, so every look-up is total.
-/

namespace FilterGraph

/-- The place of a node in its graph. -/
abbrev NodeId := Nat

/-- What an edge takes: an output of a node, narrowed to a component or not. -/
structure Supply where
  node : NodeId
  label : Label
  selector : Option Selector
  deriving DecidableEq, Repr, Inhabited

/-- An incoming edge: its label on the node it enters and the output that feeds it. -/
structure Incoming where
  label : Label
  supply : Supply
  deriving DecidableEq, Repr, Inhabited

/-- A node of a graph. -/
structure Node where
  kind : NodeKind
  name : String
  params : Params
  path : Option String
  /-- The edges the node was built with, at most one for each label. -/
  inputs : List Incoming
  /-- The edges that were appended later. -/
  feedback : List Incoming
  /-- The structural number. -/
  hash : Digest
  deriving DecidableEq, Repr, Inhabited

/-- All incoming edges in the order of their registration. -/
def Node.incoming (n : Node) : List Incoming := n.inputs ++ n.feedback

/-- How a node is shown in listings. -/
def Node.shown (n : Node) : String :=
  "Node(" ++ n.kind.name ++ ", " ++ Text.quoted n.name ++ ", " ++ n.hash.hex ++ ")"

/-- A pipeline graph. -/
structure Graph where
  nodes : Array Node
  deriving Inhabited

namespace Graph

/-- The graph without nodes. -/
def empty : Graph := ⟨#[]⟩

/-- The node at a place. -/
def node (g : Graph) (i : NodeId) : Node := g.nodes.getD i default

/-- The structural number of the node at a place. -/
def hash (g : Graph) (i : NodeId) : Digest := (g.node i).hash

/-- The incoming edges of the node at a place. -/
def incoming (g : Graph) (i : NodeId) : List Incoming := (g.node i).incoming

/-- The structural numbers of all nodes, that of the empty node included. -/
def hashes (g : Graph) : List Digest := (default : Node).hash :: g.nodes.toList.map Node.hash

theorem hash_mem_hashes (g : Graph) (i : NodeId) : g.hash i ∈ g.hashes := by
  unfold hash hashes node
  by_cases h : i < g.nodes.size
  · simp only [Array.getD, h, dite_true]
    exact List.mem_cons_of_mem _ (List.mem_map_of_mem (Array.getElem_mem_toList h))
  · simp [Array.getD, h]

/-- The term of an incoming edge in the number of its node. -/
def term (g : Graph) (e : Incoming) : Identity.Term :=
  ⟨e.label, g.hash e.supply.node, e.supply.label, e.supply.selector⟩

/-- Adds a node and gives its place. -/
def add (g : Graph) (kind : NodeKind) (name : String) (params : Params) (path : Option String)
    (inputs : List Incoming) : Graph × NodeId :=
  let hash := Identity.node Digest.ofJson kind name params path (inputs.map g.term)
  (⟨g.nodes.push { kind, name, params, path, inputs, feedback := [], hash }⟩, g.nodes.size)

/-- Appends an incoming edge to the node at a place. -/
def feedBack (g : Graph) (i : NodeId) (e : Incoming) : Graph :=
  ⟨g.nodes.modify i fun n => { n with feedback := n.feedback ++ [e] }⟩

/-- The places of the first node of each structural number, in the order of the list. -/
def distinct (g : Graph) (ids : List NodeId) : List NodeId :=
  ids.foldl (fun kept i => if kept.any (g.hash · == g.hash i) then kept else kept ++ [i]) []

end Graph

end FilterGraph
