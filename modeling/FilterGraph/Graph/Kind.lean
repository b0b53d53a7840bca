/-!
# Kinds of nodes and streams

The vocabulary of a pipeline graph: nodes are sources, transforms or sinks, a node hands out
streams of one of two kinds, and a stream can be narrowed to one component.
-/

namespace FilterGraph

/-- The name of an output or of an input of a node. -/
abbrev Label := String

/-- The kinds of node that make up a graph. -/
inductive NodeKind where
  | source
  | transform
  | sink
  deriving DecidableEq, Repr, Inhabited

/-- The name of a kind of node. -/
def NodeKind.name : NodeKind → String
  | .source => "source"
  | .transform => "transform"
  | .sink => "sink"

/-- The kinds of stream that a node can hand out. -/
inductive StreamKind where
  | filterable
  | output
  deriving DecidableEq, Repr, Inhabited

/-- The name of a kind of stream. -/
def StreamKind.name : StreamKind → String
  | .filterable => "filterable"
  | .output => "output"

/-- The kind of stream with a name. -/
def StreamKind.ofName? (s : String) : Option StreamKind :=
  if s = "filterable" then some .filterable
  else if s = "output" then some .output
  else none

/-- Sinks hand out outputs, all other nodes streams that can be filtered. -/
def NodeKind.streamKind : NodeKind → StreamKind
  | .sink => .output
  | _ => .filterable

/-- The component that a stream is narrowed to. -/
inductive Selector where
  | audio
  | video
  | subtitle
  deriving DecidableEq, Repr, Inhabited

/-- The letter of a component. -/
def Selector.letter : Selector → String
  | .audio => "a"
  | .video => "v"
  | .subtitle => "s"

/-- The component with a letter. -/
def Selector.ofLetter? (s : String) : Option Selector :=
  if s = "a" then some .audio
  else if s = "v" then some .video
  else if s = "s" then some .subtitle
  else none

@[simp] theorem Selector.ofLetter?_letter (s : Selector) : ofLetter? s.letter = some s := by
  cases s <;> rfl

/-- A component is told from its letter. -/
theorem Selector.letter_injective : Function.Injective letter := fun s t h => by
  simpa using congrArg ofLetter? h

/-- A component is read from its letter and from nothing else. -/
theorem Selector.ofLetter?_eq_some_iff {s : Selector} {t : String} :
    ofLetter? t = some s ↔ t = s.letter := by
  refine ⟨fun h => ?_, fun h => h ▸ ofLetter?_letter s⟩
  unfold ofLetter? at h
  split at h
  · cases h; assumption
  split at h
  · cases h; assumption
  split at h
  · cases h; assumption
  · cases h

end FilterGraph
