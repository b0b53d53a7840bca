import FilterGraph.Conversion.Tool
import FilterGraph.Command.Compile
import FilterGraph.Conversion.Verbosity

/-!
# Running a conversion

`Graph.run` compiles the graph that ends in some streams and runs the command.

* Faults of the graph, of the output directories, of the probe and of the conversion are reported
  in the result.
* A dry run only reports the command.
* Otherwise the directories of all outputs are created, then the version of the executable is
  looked up, then the conversion is started: at most two processes, the conversion last.
* `RunFault` lists what is not reported in the result but stops the run.
-/

namespace FilterGraph

/-! ## 1. Results -/

/-- The result of a conversion. -/
structure RunResult where
  success : Bool
  error : String
  args : List String
  output : Option String
  version : Option String
  deriving DecidableEq, Repr

/-- What stops a run without a result. -/
inductive RunFault where
  | unnamed (u : Unnamed)
  | silentProbe
  | nullInPath
  | nullInArgument
  deriving DecidableEq, Repr

/-- The text of the fault. -/
def RunFault.message (g : Graph) : RunFault → String
  | .unnamed u => u.message g
  | .silentProbe => ProbeError.silent.message
  | .nullInPath | .nullInArgument => Path.nullMessage

/-- The start of the report on a failed conversion. -/
def failureText (message : String) : String := "Conversion failed: " ++ message

/-! ## 2. Output directories -/

/-- Why the directory of an output is not there. -/
inductive DirectoryError where
  | notDirectory (p : Path)
  | notCreated (e : OsError)
  | notRead (e : OsError)
  | nullInPath
  deriving DecidableEq, Repr

/-- The text of the error. -/
def DirectoryError.message : DirectoryError → String
  | .notDirectory p =>
    failureText ("Output directory parent is not a directory: " ++ p.text)
  | .notCreated e => failureText e.message
  | .notRead e => e.message
  | .nullInPath => Path.nullMessage

/-- Creates the directory of an output unless it is there, and reports that. -/
def makeParent (verbosity : Verbosity) (output : Path) : Act DirectoryError Unit := do
  let parent := output.parent
  let fs := (← get).files
  match fs.present parent with
  | .error e => throw (.notRead e)
  | .ok true => unless fs.isDirectory parent do throw (.notDirectory parent)
  | .ok false =>
    if parent.hasNull then throw .nullInPath
    let (files, error) := fs.makeDirectories true parent
    modify fun s => { s with files }
    match error with
    | some e => throw (.notCreated e)
    | none =>
      if verbosity.showsCommands then
        Act.say (.status ("Created output directory: " ++ parent.text))

/-! ## 3. The conversion -/

/-- Runs a command and reports its failure in the result, unless the host does not take its
vector. -/
def convert (how : Reporting) (executable : String) (rest : List String) :
    Act RunFault RunResult := do
  let args := executable :: rest
  match ← Act.attempt (runTool how executable rest) with
  | .ok output => return ⟨true, "", args, some output, none⟩
  | .error .nullInArgument => throw .nullInArgument
  | .error e => return ⟨false, failureText e.message, args, none, none⟩

/-- The banner of a command: always on a dry run, otherwise from the level of commands on. -/
def announce {ε : Type} (mode : RunMode) (banner : String) : Act ε Unit := do
  if mode.verbosity.showsCommands || mode.dryRun then Act.say (.status banner)

/-- The word in front of a command in its banner. -/
def bannerLabel (dryRun : Bool) : String := if dryRun then "Command" else "Running"

/-- Prepares the outputs and finds the version. -/
def prepare (mode : RunMode) (executable : String) (outputs : List Path) :
    Act (DirectoryError ⊕ ProbeError) String := do
  match ← Act.attempt (outputs.forM (makeParent mode.verbosity)) with
  | .error e => throw (.inl e)
  | .ok () => match ← Act.attempt (lookUpVersion executable) with
    | .error e => throw (.inr e)
    | .ok version => return version

/-- Runs a compiled command with the executable `executable`. -/
def performCommand (mode : RunMode) (executable : String) (rest : List String)
    (outputs : List Path) : Act RunFault RunResult := do
  let args := executable :: rest
  if mode.dryRun then
    announce mode (bannerLabel true ++ ": " ++ Shell.line args)
    return ⟨true, "", args, none, none⟩
  match ← Act.attempt (prepare mode executable outputs) with
  | .error (.inl .nullInPath) => throw .nullInPath
  | .error (.inr .silent) => throw .silentProbe
  | .error (.inr .nullInArgument) => throw .nullInArgument
  | .error (.inl e) => return ⟨false, e.message, args, none, none⟩
  | .error (.inr e) => return ⟨false, e.message, args, none, none⟩
  | .ok version =>
    Act.say (.debug ("Using " ++ version))
    if mode.verbosity.showsCommands then Act.say (.status ("Using " ++ version))
    let how : Reporting := ⟨mode.verbosity.streamsOutput, mode.verbosity.showsCommands⟩
    let result ← convert how executable rest
    return { result with version := some version }

/-- The result of a graph that has no command. -/
def RunResult.invalidGraph (message : String) : RunResult :=
  ⟨false, "Invalid pipeline graph: " ++ message, [], none, none⟩

/-- Compiles the graph that ends in some streams and runs it. -/
def Graph.run (g : Graph) (settings : Settings) (mode : RunMode)
    (streams : List Stream) : Act RunFault RunResult := do
  (g.outcomeLog settings streams).forM fun m => Act.say (.debug m)
  match g.command (g.terminals streams), g.outputPaths streams with
  | .error (.unnamed u), _ => throw (.unnamed u)
  | .error (.graph e), _ | .ok _, .error e => return .invalidGraph (e.message g)
  | .ok command, .ok outputs =>
    performCommand mode settings.executable (command.rest settings) (outputs.map Path.ofString)

end FilterGraph
