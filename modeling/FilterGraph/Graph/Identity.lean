import FilterGraph.Graph.Kind
import FilterGraph.Graph.Params
import FilterGraph.Hash.Digest

/-!
# Structural identity

A node is known by a number of 64 bits: the digest of its own content plus, modulo 2 ^ 64, the
digest of one term for each incoming edge. The term holds the number of the supplying node, so the
whole graph above a node goes into its number; a sum does not depend on the order of its terms.

All functions take the digest as a parameter; the graph uses `Digest.ofJson`.
-/

namespace FilterGraph.Identity

/-- What one incoming edge contributes: the label it has on this node, the number of the
supplying node, and the label and component it takes there. -/
structure Term where
  label : Label
  supplier : Digest
  supplierLabel : Label
  selector : Option Selector
  deriving DecidableEq, Repr

/-- A text that may be missing. -/
def optional : Option String → Json
  | none => .null
  | some s => .string s

/-- The JSON value of a node's own content. -/
def contentJson (kind : NodeKind) (name : String) (params : Params) (path : Option String) : Json :=
  .object [("kind", .string kind.name), ("name", .string name), ("params", params.encoded),
    ("path", optional path)]

/-- The JSON value of an edge term. -/
def Term.toJson (t : Term) : Json :=
  .object [("downstream_label", .string t.label), ("upstream_hash", .int t.supplier.toNat),
    ("upstream_label", .string t.supplierLabel),
    ("upstream_selector", optional (t.selector.map Selector.letter))]

/-- The number of a term. -/
def Term.number (digest : Json → Digest) (t : Term) : Digest := digest t.toJson

/-- The number of a node. -/
def node (digest : Json → Digest) (kind : NodeKind) (name : String) (params : Params)
    (path : Option String) (terms : List Term) : Digest :=
  digest (contentJson kind name params path) + (terms.map (·.number digest)).foldr (· + ·) 0

/-- The number of output `label` of a node. -/
def output (digest : Json → Digest) (nodeNumber : Digest) (label : Label) : Digest :=
  nodeNumber + digest (.object [("label", .string label)])

end FilterGraph.Identity
