import FilterGraph.Command.Names

/-!
# References to streams

A reference is the name of a stream and the component taken from it. In the filter graph it stands
in brackets; as the argument of a map it stands in brackets when it names an output of a filter and
bare when it names an input.
-/

namespace FilterGraph

/-- How a consumer writes the stream that feeds it. -/
structure Reference where
  name : String
  selector : Option Selector
  bare : Bool
  deriving DecidableEq, Repr

/-- A text in brackets. -/
def bracketed (s : String) : String := "[" ++ s ++ "]"

/-- The suffix that takes one component. -/
def selectorSuffix : Option Selector → String
  | none => ""
  | some s => ":" ++ s.letter

theorem toList_selectorSuffix (k : Option Selector) :
    (selectorSuffix k).toList = (k.map (·.letter.toList)).elim [] (':' :: ·) := by
  cases k with
  | none => rfl
  | some k => rw [selectorSuffix, String.toList_append]; rfl

/-- The text of a reference. -/
def Reference.text (r : Reference) : String :=
  let t := r.name ++ selectorSuffix r.selector
  if r.bare then t else bracketed t

namespace Graph

/-- The name of an output of a node. -/
def streamName (g : Graph) (names : StreamNames) (i : NodeId) (label : Label) :
    Except Unnamed String :=
  match names.name? (g.hash i) label with
  | some name => .ok name
  | none => .error ⟨i, label⟩

/-- The reference to the stream that feeds an edge; `final` marks the argument of a map. -/
def reference (g : Graph) (names : StreamNames) (final : Bool) (e : Incoming) :
    Except Unnamed Reference := do
  let name ← g.streamName names e.supply.node e.supply.label
  .ok ⟨name, e.supply.selector, final && (g.node e.supply.node).kind = .source⟩

/-- The pad that a filter declares for the output that feeds an edge. -/
def pad (g : Graph) (names : StreamNames) (supplier : NodeId) (label : Label) :
    Except Unnamed String := do
  .ok (bracketed (← g.streamName names supplier label))

end Graph

end FilterGraph
