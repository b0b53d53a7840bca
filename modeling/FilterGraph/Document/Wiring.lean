import FilterGraph.Document.Rules
import FilterGraph.Graph.Stream

/-!
# The graph of a pipeline document

`Pipeline.toGraph` adds the inputs of a document as sources and its outputs as sinks, one after the
other. A filter is added when an output, or a filter that an output needs, first asks for it, after
all that it asks for itself; it is one node however often it is referred to, and its outputs are
picked by label. A filter that no output needs is not added.

* `Wiring.resolve`, `Wiring.resolveAll`: the streams that addresses name;
* `Wiring.filter`: the outputs of a filter, built unless they are there.

An address of something that is not there cannot occur in a document that keeps the rules, nor can a
filter that waits for itself; both have an error, so that building is total.
-/

namespace FilterGraph

/-- Why a document cannot be wired. -/
inductive WiringError where
  /-- The id stands for nothing, or for a filter that is being built and asks for itself. -/
  | dangling (id : String)
  | stream (e : StreamError)
  deriving DecidableEq, Repr

/-- A graph under construction with the nodes that ids stand for. -/
structure Wiring where
  graph : Graph
  sources : List (String × Stream)
  filters : List (String × MultiOutput)

/-- What a row of streams feeds; a single stream stands alone. -/
def Feeds.ofStreams : List Stream → Feeds
  | [s] => .one s
  | ss => .many ss

namespace Wiring

/-- A stream, narrowed to a component if one is asked for. -/
def narrowed (w : Wiring) (s : Stream) : Option Selector → Except WiringError Stream
  | none => .ok s
  | some c => (w.graph.narrow s c).mapError .stream

/-- Adds an input. -/
def addInput (w : Wiring) (e : String × InputEntry) : Wiring :=
  let (graph, s) := w.graph.source (some e.2.path) e.2.params.toParams
  { w with graph, sources := Entries.set e.1 s w.sources }

/-- Adds a filter that streams feed. -/
def addFilter (w : Wiring) (id : String) (f : FilterEntry) (ss : List Stream) :
    Wiring × MultiOutput :=
  let (graph, m) := w.graph.filterMulti (.ofStreams ss) f.name f.params.toParams
  ({ w with graph, filters := Entries.set id m w.filters }, m)

/-- Adds an output that streams feed. -/
def addSink (w : Wiring) (o : OutputEntry) (ss : List Stream) : Wiring × Stream :=
  let (graph, s) := w.graph.output (.ofStreams ss) (some o.path) o.params.toParams
  ({ w with graph }, s)

mutual

/-- The stream that an address names, and the graph with all that had to be built for it. The
filters on the path are being built. -/
def resolve (fs : Filters) (path : List String) (w : Wiring) (r : StreamAddress) :
    Except WiringError (Wiring × Stream) :=
  match Entries.find? r.node w.sources with
  | some s => (w.narrowed s r.selector).map (w, ·)
  | none => match filter fs path w r.node with
    | .error e => .error e
    | .ok (w, m) => (w.narrowed (w.graph.stream m.node r.label none) r.selector).map (w, ·)
termination_by (fs.offPath path, 1)

/-- The streams that addresses name, one after the other. -/
def resolveAll (fs : Filters) (path : List String) (w : Wiring) :
    List StreamAddress → Except WiringError (Wiring × List Stream)
  | [] => .ok (w, [])
  | r :: rs => match resolve fs path w r with
    | .error e => .error e
    | .ok (w, s) => (resolveAll fs path w rs).map fun (w, ss) => (w, s :: ss)
termination_by rs => (fs.offPath path, rs.length + 2)

/-- The outputs of a filter; one that is not there yet is added after all that it asks for. -/
def filter (fs : Filters) (path : List String) (w : Wiring) (id : String) :
    Except WiringError (Wiring × MultiOutput) :=
  match Entries.find? id w.filters with
  | some m => .ok (w, m)
  | none =>
    if _hp : id ∈ path then .error (.dangling id)
    else match _hf : Entries.find? id fs with
      | none => .error (.dangling id)
      | some f => (resolveAll fs (path ++ [id]) w f.inputs).map fun (w, ss) => w.addFilter id f ss
termination_by (fs.offPath path, 0)
decreasing_by exact Prod.Lex.left _ _ (Filters.offPath_append_lt _hf _hp)

end

/-- Adds an output after all that it asks for. -/
def addOutput (fs : Filters) (w : Wiring) (o : OutputEntry) :
    Except WiringError (Wiring × Stream) :=
  (resolveAll fs [] w o.inputs).map fun (w, ss) => w.addSink o ss

/-- Adds outputs one after the other. -/
def addOutputs (fs : Filters) (w : Wiring) :
    List OutputEntry → Except WiringError (Wiring × List Stream)
  | [] => .ok (w, [])
  | o :: os => match addOutput fs w o with
    | .error e => .error e
    | .ok (w, s) => (addOutputs fs w os).map fun (w, ss) => (w, s :: ss)

end Wiring

/-- Adds a document to a graph and gives one stream for each of its outputs. -/
def Pipeline.toGraph (p : Pipeline) (g : Graph) : Except WiringError (Graph × List Stream) :=
  let w := p.document.inputs.foldl Wiring.addInput ⟨g, [], []⟩
  (w.addOutputs p.document.filters p.document.outputs).map fun (w, ss) => (w.graph, ss)

end FilterGraph
