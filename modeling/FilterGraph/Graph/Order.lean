import FilterGraph.Counting
import FilterGraph.Graph.Basic
import FilterGraph.Entries

/-!
# Dependency order

`Graph.sort` puts the nodes above a list of terminals into an order in which every node comes after
the nodes that feed it, and derives the outgoing edges on the way.

* The walk goes depth first from each terminal in the given order and follows incoming edges in the
  order of their registration.
* Nodes are told apart by their structural number: of several nodes with one number the walk
  enters the one it meets first.
* Every edge that is followed is recorded at the node that supplies it, also when that node is
  finished, so a shared node sees all of its consumers.
* A node that is met again while it is still on the path of the walk closes a cycle.

The walk ends because each step either enters a node whose number was not met before, or leaves
the met numbers as they are and shortens what is left to do on the path.
-/

namespace FilterGraph

/-- The consuming end of an edge. -/
structure Consumer where
  node : NodeId
  label : Label
  selector : Option Selector
  deriving DecidableEq, Repr, Inhabited

/-- The outgoing edges of one node by output label, labels and consumers in the order met. -/
abbrev Outlets := List (Label × List Consumer)

/-- A node that closes a cycle of incoming edges. -/
structure CycleFound where
  node : NodeId
  deriving DecidableEq, Repr

/-- Nodes in dependency order with the outgoing edges of the nodes, by structural number. -/
structure Sorted where
  nodes : List NodeId
  outgoing : List (Digest × Outlets)
  deriving DecidableEq, Repr, Inhabited

namespace Sorted

/-- Nothing sorted yet. -/
def empty : Sorted := ⟨[], []⟩

/-- Records an edge at the node that supplies it. -/
def record (s : Sorted) (supplier : Digest) (label : Label) (c : Consumer) : Sorted :=
  let add (m : Option Outlets) : Outlets :=
    Entries.modify label (fun cs => cs.getD [] ++ [c]) (m.getD [])
  { s with outgoing := Entries.modify supplier add s.outgoing }

/-- Appends a finished node. -/
def finish (s : Sorted) (i : NodeId) : Sorted := { s with nodes := s.nodes ++ [i] }

end Sorted

namespace Graph

/-- The nodes on the path of a walk, the innermost first, each with the edges still to follow. -/
abbrev Trail := List (NodeId × List Incoming)

/-- The nodes on a path, the innermost first. -/
def entered (path : Trail) : List NodeId := path.map (·.1)

@[simp] theorem entered_nil : entered [] = [] := rfl

@[simp] theorem entered_cons (i : NodeId) (es : List Incoming) (path : Trail) :
    entered ((i, es) :: path) = i :: entered path := rfl

/-- Whether a node of this number is among the given ones. -/
def holds (g : Graph) (ids : List NodeId) (h : Digest) : Bool := ids.any (g.hash · == h)

/-- Whether a node of this number was met by the walk. -/
def met (g : Graph) (path : Trail) (s : Sorted) (h : Digest) : Bool :=
  g.holds s.nodes h || g.holds (entered path) h

/-- How many numbers of the graph the walk has not met. -/
def unmet (g : Graph) (path : Trail) (s : Sorted) : Nat :=
  g.hashes.countP fun h => ! g.met path s h

/-- How much is left to do on a path: its nodes and the edges to follow from them. -/
def pending (path : Trail) : Nat := (path.map fun p => p.2.length + 1).foldr (· + ·) 0

@[simp] theorem holds_cons (g : Graph) (i : NodeId) (ids : List NodeId) (h : Digest) :
    g.holds (i :: ids) h = (g.hash i == h || g.holds ids h) := rfl

@[simp] theorem holds_append (g : Graph) (as bs : List NodeId) (h : Digest) :
    g.holds (as ++ bs) h = (g.holds as h || g.holds bs h) := by
  simp [holds, List.any_append]

theorem holds_iff {g : Graph} {ids : List NodeId} {h : Digest} :
    g.holds ids h = true ↔ h ∈ ids.map g.hash := by
  simp [holds]

theorem unmet_finish (g : Graph) (i : NodeId) (path : Trail) (s : Sorted) :
    g.unmet path (s.finish i) = g.unmet ((i, []) :: path) s := by
  unfold unmet met Sorted.finish
  congr 1
  funext h
  simp [holds, Bool.or_assoc]

theorem unmet_record (g : Graph) (path : Trail) (s : Sorted) (u : Digest) (l : Label)
    (c : Consumer) : g.unmet path (s.record u l c) = g.unmet path s := rfl

theorem unmet_tail (g : Graph) (i : NodeId) (es fs : List Incoming) (path : Trail) (s : Sorted) :
    g.unmet ((i, es) :: path) s = g.unmet ((i, fs) :: path) s := rfl

/-- Entering a node that was not met lowers the count. -/
theorem unmet_enter_lt (g : Graph) (i : NodeId) (es : List Incoming) (path : Trail) (s : Sorted)
    (h : g.met path s (g.hash i) = false) :
    g.unmet ((i, es) :: path) s < g.unmet path s :=
  countP_lt_countP
    (fun x hx => by
      simp only [met, entered_cons, holds_cons, Bool.not_eq_true', Bool.or_eq_false_iff] at hx ⊢
      exact ⟨hx.1, hx.2.2⟩)
    (g.hash_mem_hashes i) (by simp [met]) (by simp [h])

/-- Follows the edges of a path until none is left. -/
def walk (g : Graph) : Trail → Sorted → Except CycleFound Sorted
  | [], s => .ok s
  | (i, []) :: path, s => g.walk path (s.finish i)
  | (i, e :: es) :: path, s =>
    let u := e.supply.node
    let s' := s.record (g.hash u) e.supply.label ⟨i, e.label, e.supply.selector⟩
    if g.holds s.nodes (g.hash u) then g.walk ((i, es) :: path) s'
    else if g.holds (i :: entered path) (g.hash u) then .error ⟨u⟩
    else g.walk ((u, g.incoming u) :: (i, es) :: path) s'
termination_by path s => (g.unmet path s, pending path)
decreasing_by
  · rw [unmet_finish]
    exact Prod.Lex.right _ (by simp [pending])
  · rw [unmet_record, unmet_tail g i es (e :: es)]
    exact Prod.Lex.right _ (by simp [pending])
  · apply Prod.Lex.left
    rw [unmet_record, unmet_tail g i (e :: es) es]
    exact unmet_enter_lt _ _ _ _ _ (by simp_all [met, u])

/-- Sorts what is above a terminal, unless the terminal is sorted already. -/
def visit (g : Graph) (s : Sorted) (t : NodeId) : Except CycleFound Sorted :=
  if g.holds s.nodes (g.hash t) then .ok s else g.walk [(t, g.incoming t)] s

/-- The nodes above the terminals in dependency order. -/
def sort (g : Graph) (terminals : List NodeId) : Except CycleFound Sorted :=
  terminals.foldlM g.visit .empty

/-! ## Reading the result -/

/-- The sorted nodes of a kind. -/
def ofKind (g : Graph) (s : Sorted) (kind : NodeKind) : List NodeId :=
  s.nodes.filter fun i => (g.node i).kind = kind

/-- The sorted sources. -/
def sources (g : Graph) (s : Sorted) : List NodeId := g.ofKind s .source

/-- The sorted filters. -/
def transforms (g : Graph) (s : Sorted) : List NodeId := g.ofKind s .transform

/-- The sorted sinks. -/
def sinks (g : Graph) (s : Sorted) : List NodeId := g.ofKind s .sink

/-- The outgoing edges of a node by label. -/
def outgoing (g : Graph) (s : Sorted) (i : NodeId) : Outlets :=
  (Entries.find? (g.hash i) s.outgoing).getD []

/-- The outgoing edges of a node in the order of registration. -/
def outgoingEdges (g : Graph) (s : Sorted) (i : NodeId) : List (Label × Consumer) :=
  (g.outgoing s i).flatMap fun m => m.2.map (m.1, ·)

end Graph

end FilterGraph
