import FilterGraph.Command.Basic
import FilterGraph.Graph.Order
import FilterGraph.Graph.Stream

/-!
# From a graph to a command

`Graph.command` sorts the graph above its terminals, names its streams and renders its nodes.

* The outputs of the filters are named in sorted order, those of one filter in the order in which
  their consumers were met; an output with two consumers is refused.
* `Graph.render` keeps the names it has given even when a statement cannot be written.
* `CompileError` tells faults of the graph from a reference to an output that never gets a name,
  which only a sink that feeds another node can bring about.
* `Graph.log` is what a compilation has to say about itself, up to the stage it reaches.
-/

namespace FilterGraph

/-! ## 1. Errors -/

/-- Why a graph has no command. -/
inductive GraphError where
  | cycle (node : NodeId)
  | multipleConsumers (node : NodeId) (label : Label) (consumers : List Consumer)
  deriving DecidableEq, Repr

/-- The text of the error. -/
def GraphError.message (g : Graph) : GraphError → String
  | .cycle i =>
    "Graph is not a DAG: cycle through " ++ (g.node i).kind.name ++ " node '" ++ (g.node i).name ++
      "'"
  | .multipleConsumers i label consumers =>
    let names := consumers.map fun c => "'" ++ (g.node c.node).name ++ "'"
    "Output '" ++ label ++ "' of filter '" ++ (g.node i).name ++ "' has " ++
      toString consumers.length ++ " consumers (" ++ ", ".intercalate names ++
      "); each filter output can feed only one consumer"

/-- Why a compilation stops. -/
inductive CompileError where
  | graph (e : GraphError)
  | unnamed (u : Unnamed)
  deriving DecidableEq, Repr

/-- The text of the error. -/
def CompileError.message (g : Graph) : CompileError → String
  | .graph e => e.message g
  | .unnamed u => u.message g

/-! ## 2. Filters -/

/-- The text of a filter with its parameters. -/
def filterExpression (name : String) (params : Params) : String :=
  if params.settings.isEmpty then name else name ++ "=" ++ ":".intercalate params.settings

namespace Graph

/-- The consumed outputs of the filters in the order in which they are named. -/
def consumedOutputs (g : Graph) (s : Sorted) : List (NodeId × Label × List Consumer) :=
  (g.transforms s).flatMap fun i => (g.outgoing s i).map fun m => (i, m.1, m.2)

/-- Names outputs until one of them has several consumers; the names given before it stay. -/
def assignNames (g : Graph) : List (NodeId × Label × List Consumer) → StreamNames →
    StreamNames × Option GraphError
  | [], names => (names, none)
  | (i, label, consumers) :: r, names =>
    if 1 < consumers.length then (names, some (.multipleConsumers i label consumers))
    else g.assignNames r (names.assign (g.hash i, label))

/-- The statement of a filter. -/
def statement (g : Graph) (s : Sorted) (names : StreamNames) (i : NodeId) :
    Except Unnamed Statement := do
  let inputs ← (g.incoming i).mapM (g.reference names false)
  let pads ← (g.outgoingEdges s i).mapM fun e => g.pad names i e.1
  .ok ⟨inputs, filterExpression (g.node i).name (g.node i).params, pads⟩

/-- The statements of all sorted filters. -/
def statements (g : Graph) (s : Sorted) (names : StreamNames) : Except Unnamed (List Statement) :=
  (g.transforms s).mapM (g.statement s names)

/-- Names the consumed outputs of the filters and renders the filters: the names afterwards, which
stay whatever happens, and the statements. -/
def render (g : Graph) (s : Sorted) (names : StreamNames) :
    StreamNames × Except CompileError (List Statement) :=
  match g.assignNames (g.consumedOutputs s) names with
  | (names, some e) => (names, .error (.graph e))
  | (names, none) => (names, (g.statements s names).mapError .unnamed)

/-! ## 3. Inputs and outputs -/

/-- The arguments of a source. -/
def inputFragment (g : Graph) (i : NodeId) : InputFragment := ⟨(g.node i).params, (g.node i).path⟩

/-- Gives sources their positions in the order of the list. -/
def nameSources (g : Graph) (sources : List NodeId) (names : StreamNames) : StreamNames :=
  (sources.zipIdx).foldl (fun names p => names.place (g.hash p.1) p.2) names

/-- The arguments of a sink. -/
def outputFragment (g : Graph) (names : StreamNames) (i : NodeId) :
    Except Unnamed OutputFragment := do
  let references ← (g.incoming i).mapM (g.reference names true)
  .ok ⟨references, (g.node i).params, (g.node i).path⟩

/-! ## 4. The command -/

/-- The filters with the names of all streams; the sources are named first. -/
def renderSorted (g : Graph) (s : Sorted) : StreamNames × Except CompileError (List Statement) :=
  g.render s (g.nameSources (g.sources s) .empty)

/-- The sorted nodes above the terminals. -/
def sorted (g : Graph) (terminals : List NodeId) : Except GraphError Sorted :=
  (g.sort terminals).mapError fun c => .cycle c.node

/-- The command of the graph above the terminals. -/
def command (g : Graph) (terminals : List NodeId) : Except CompileError Command := do
  let s ← (g.sorted terminals).mapError .graph
  let (names, statements) := g.renderSorted s
  let statements ← statements
  let outputs ← ((g.sinks s).mapM (g.outputFragment names)).mapError .unnamed
  .ok ⟨(g.sources s).map g.inputFragment, statements, outputs⟩

/-- The vector of arguments for the graph that ends in some streams. -/
def compile (g : Graph) (settings : Settings) (streams : List Stream) :
    Except CompileError (List String) :=
  (g.command (g.terminals streams)).map (·.arguments settings)

/-- A compilation that keeps faults of the graph as a value and lets only the others stop it. -/
def outcome (g : Graph) (settings : Settings) (streams : List Stream) :
    Except Unnamed (Except GraphError (List String)) :=
  match g.compile settings streams with
  | .ok args => .ok (.ok args)
  | .error (.graph e) => .ok (.error e)
  | .error (.unnamed u) => .error u

/-! ## 5. What a compilation says -/

/-- The report on the filter graph. -/
def renderedMessage (statements : List Statement) (names : StreamNames) : String :=
  s!"Rendered {statements.length} filter statement(s) with {names.outputs.length} named output(s)"

/-- The report on a compiled graph. -/
def compiledMessage (g : Graph) (s : Sorted) : String :=
  s!"Compiled {s.nodes.length} node(s): {(g.sources s).length} source(s), " ++
    s!"{(g.transforms s).length} filter(s), {(g.sinks s).length} output(s)"

/-- The messages of a compilation: one when the filter graph is rendered, one at the end. -/
def log (g : Graph) (streams : List Stream) : List String :=
  match g.sorted (g.terminals streams) with
  | .error _ => []
  | .ok s => match g.renderSorted s with
    | (_, .error _) => []
    | (names, .ok statements) =>
      renderedMessage statements names ::
        match (g.sinks s).mapM (g.outputFragment names) with
        | .error _ => []
        | .ok _ => [g.compiledMessage s]

/-- The messages of a compilation that keeps faults of the graph, which it reports last. -/
def outcomeLog (g : Graph) (settings : Settings) (streams : List Stream) : List String :=
  g.log streams ++
    match g.outcome settings streams with
    | .ok (.error e) => ["Compile failed: " ++ e.message g]
    | _ => []

/-- The paths that the outputs behind some streams write, the empty ones left out. -/
def outputPaths (g : Graph) (streams : List Stream) : Except GraphError (List String) :=
  (g.sorted (g.terminals streams)).map fun s =>
    (g.sinks s).filterMap fun i => (g.node i).path.filter (! ·.isEmpty)

end Graph

end FilterGraph
