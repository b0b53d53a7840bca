import FilterGraph.CommandLine.Arguments
import FilterGraph.Conversion.Run
import FilterGraph.Document.File
import FilterGraph.Document.Wiring

/-!
# The commands

`compileJob` prints the command for a document, `runJob` runs it. Both answer with an exit
code: 0 when there is a command and, for a run, the conversion succeeded, and 1 with one report
otherwise. `CommandFault` lists what stops a command without an exit code.
-/

namespace FilterGraph.CommandLine

/-- What stops a command without an exit code. -/
inductive CommandFault where
  /-- The document is not UTF-8. -/
  | notText
  | nullInPath
  | wiring (e : WiringError)
  | run (g : Graph) (f : RunFault)

/-- Where a run sends its report: to the standard error output, unless the caller takes the status
messages; then it goes the same way as they do. -/
def report (callback : Option Sink) (message : String) : Event :=
  match callback with
  | none => .error message
  | some .printed => .output message
  | some _ => .status message

/-- The report on a file that holds no document. -/
def loadReport (p : Path) (message : String) : String :=
  "Invalid pipeline document " ++ p.text ++ ": " ++ message

/-- The document at a path, unless it is reported why there is none. -/
def openDocument (callback : Option Sink) (p : Path) : Act CommandFault (Option Pipeline) := do
  match (← get).files.readPipeline p with
  | .ok document => return some document
  | .error (.unreadable e) =>
    Act.say (report callback (loadReport p e.message))
    return none
  | .error (.invalid issues) =>
    Act.say (report callback (loadReport p (Schema.report documentTitle .text issues)))
    return none
  | .error .notText => throw .notText
  | .error .nullInPath => throw .nullInPath

/-- The graph of a document and its outputs. -/
def graphOf (document : Pipeline) : Act CommandFault (Graph × List Stream) :=
  match document.toGraph .empty with
  | .ok r => return r
  | .error e => throw (.wiring e)

/-- Prints the command for a document. -/
def compileJob (o : Job) : Act CommandFault Nat := do
  match ← openDocument none o.pipeline with
  | none => return 1
  | some document =>
    let (g, streams) ← graphOf document
    (g.outcomeLog o.settings streams).forM fun m => Act.say (.debug m)
    match g.outcome o.settings streams with
    | .error u => throw (.run g (.unnamed u))
    | .ok (.error e) =>
      Act.say (.error (e.message g))
      return 1
    | .ok (.ok args) =>
      Act.say (.output (Shell.line args))
      return 0

/-- Runs the command for a document. -/
def runJob (callback : Option Sink) (o : Job) : Act CommandFault Nat := do
  match ← openDocument callback o.pipeline with
  | none => return 1
  | some document =>
    let (g, streams) ← graphOf document
    match ← Act.attempt (g.run o.settings o.mode streams) with
    | .error f => throw (.run g f)
    | .ok result =>
      if result.success then return 0
      Act.say (report callback result.error)
      return 1

/-- Performs a task without a callback. -/
def perform (task : Task) (o : Job) : Act CommandFault Nat :=
  match task with
  | .compile => compileJob o
  | .run => runJob none o

end FilterGraph.CommandLine
