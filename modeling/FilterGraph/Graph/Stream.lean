import FilterGraph.Graph.Basic

/-!
# Streams and the operations that build a graph

A stream is a handle on one output of a node, narrowed to a component or not; a filter with
several outputs gives a `MultiOutput`, whose streams are picked by label.

* `Graph.source`, `Graph.filter`, `Graph.filterMulti` and `Graph.output` add a node and give the
  handle on it;
* one stream feeds the input with the empty label, several streams the inputs `0`, `1`, …;
* `Graph.narrow` narrows a stream once: a narrowed stream stays as it is;
* `StreamError` lists what can be wrong with a request.
-/

namespace FilterGraph

/-- An output of a node as a handle. -/
structure Stream where
  kind : StreamKind
  node : NodeId
  label : Label
  selector : Option Selector
  deriving DecidableEq, Repr, Inhabited

/-- The labelled outputs of a node. -/
structure MultiOutput where
  node : NodeId
  deriving DecidableEq, Repr, Inhabited

/-- What feeds a node: a single stream, or a row of streams. -/
inductive Feeds where
  | one (s : Stream)
  | many (ss : List Stream)
  deriving Repr

/-- What can be asked of a stream by name. -/
inductive Operation where
  | filter
  | filterMultiOutput
  | output
  | compile
  | run
  deriving DecidableEq, Repr

/-- The name of an operation. -/
def Operation.name : Operation → String
  | .filter => "filter"
  | .filterMultiOutput => "filter_multi_output"
  | .output => "output"
  | .compile => "compile"
  | .run => "run"

/-- The name of the type of a stream. -/
def StreamKind.typeName : StreamKind → String
  | .filterable => "FilterableStream"
  | .output => "OutputStream"

/-- Only outputs are compiled and run, and only the other streams feed further nodes. -/
def StreamKind.offers : StreamKind → Operation → Bool
  | .filterable, .filter | .filterable, .filterMultiOutput | .filterable, .output => true
  | .output, .compile | .output, .run => true
  | _, _ => false

/-- What can be wrong with a request for a stream. -/
inductive StreamError where
  /-- The stream is narrowed already. -/
  | alreadyNarrowed (selector : Selector)
  /-- The value, as a listing shows it, names no component. -/
  | unknownSelector (shown : String)
  /-- The value, as a listing shows it, names no kind of stream. -/
  | unknownKind (shown : String)
  /-- A value of this kind cannot be looked up. -/
  | unhashable (kind : String)
  /-- A stream of this kind does not offer the operation. -/
  | notOffered (kind : StreamKind) (operation : Operation)
  deriving DecidableEq, Repr

/-- The text of the error. -/
def StreamError.message : StreamError → String
  | .alreadyNarrowed s => "Stream is already selected ('" ++ s.letter ++ "')"
  | .unknownSelector shown => shown ++ " is not a valid Selector"
  | .unknownKind shown => "No stream type for kind: " ++ shown
  | .unhashable kind => "unhashable type: '" ++ kind ++ "'"
  | .notOffered kind operation =>
    "'" ++ kind.typeName ++ "' object has no attribute '" ++ operation.name ++ "'"

/-- The component that a value names by its letter. -/
def Selector.ofJson : Json → Except StreamError Selector
  | .string s => match ofLetter? s with
    | some c => .ok c
    | none => .error (.unknownSelector (Json.string s).literal)
  | v => .error (.unknownSelector v.literal)

/-- The kind of stream that a value names. -/
def StreamKind.ofJson : Json → Except StreamError StreamKind
  | .string s => match ofName? s with
    | some k => .ok k
    | none => .error (.unknownKind (Json.string s).literal)
  | .array items => .error (.unhashable (Json.array items).kindName)
  | .object members => .error (.unhashable (Json.object members).kindName)
  | v => .error (.unknownKind v.literal)

namespace Stream

/-- The output that the stream takes. -/
def supply (s : Stream) : Supply := ⟨s.node, s.label, s.selector⟩

/-- Refuses an operation that streams of this kind do not offer. -/
def require (s : Stream) (operation : Operation) : Except StreamError Unit :=
  if s.kind.offers operation then .ok () else .error (.notOffered s.kind operation)

end Stream

/-- The streams that feed a node. -/
def Feeds.streams : Feeds → List Stream
  | .one s => [s]
  | .many ss => ss

/-- The incoming edges that streams become: one has the empty label, several are numbered. -/
def Feeds.edges : Feeds → List Incoming
  | .one s => [⟨"", s.supply⟩]
  | .many ss => ss.mapIdx fun i s => ⟨toString i, s.supply⟩

namespace Graph

/-- The handle on an output of a node, of the kind that the node hands out. -/
def stream (g : Graph) (i : NodeId) (label : Label) (selector : Option Selector) : Stream :=
  ⟨(g.node i).kind.streamKind, i, label, selector⟩

/-- The structural number of a stream; its component does not enter. -/
def streamHash (g : Graph) (s : Stream) : Digest :=
  Identity.output Digest.ofJson (g.hash s.node) s.label

/-- The stream narrowed to a component. -/
def narrow (g : Graph) (s : Stream) (component : Selector) : Except StreamError Stream :=
  match s.selector with
  | some c => .error (.alreadyNarrowed c)
  | none => .ok (g.stream s.node s.label (some component))

/-- The stream narrowed to the component that a value names. -/
def narrowBy (g : Graph) (s : Stream) (item : Json) : Except StreamError Stream :=
  match s.selector with
  | some c => .error (.alreadyNarrowed c)
  | none => do g.narrow s (← Selector.ofJson item)

/-- Adds a source that reads a path. -/
def source (g : Graph) (path : Option String) (params : Params) : Graph × Stream :=
  let (g, i) := g.add .source "input" params path []
  (g, g.stream i "" none)

/-- Adds a filter and gives its labelled outputs. -/
def filterMulti (g : Graph) (feeds : Feeds) (name : String) (params : Params) :
    Graph × MultiOutput :=
  let (g, i) := g.add .transform name params none feeds.edges
  (g, ⟨i⟩)

/-- Adds a filter and gives its output with the empty label. -/
def filter (g : Graph) (feeds : Feeds) (name : String) (params : Params) : Graph × Stream :=
  let (g, m) := g.filterMulti feeds name params
  (g, g.stream m.node "" none)

/-- Adds a sink that writes a path. -/
def output (g : Graph) (feeds : Feeds) (path : Option String) (params : Params) :
    Graph × Stream :=
  let (g, i) := g.add .sink "output" params path feeds.edges
  (g, g.stream i "" none)

/-- The distinct nodes behind streams, in the order of their first mention. -/
def terminals (g : Graph) (ss : List Stream) : List NodeId := g.distinct (ss.map (·.node))

end Graph

end FilterGraph
