import FilterGraph.Conversion.Progress
import FilterGraph.Host.Session
import FilterGraph.Shell.Quote
import FilterGraph.Text.Blank

/-!
# Running the tool

Starting the executable with arguments, and asking it for its version.

* `runTool` gives what the process printed, or says why there is nothing to use; what is announced
  is announced before the start, which the host may bar;
* `probeVersion` is the first line that the executable prints about itself;
* `lookUpVersion` asks only once for each executable and remembers the answer;
* `cacheDirectory?` is where answers are kept.
-/

namespace FilterGraph

/-- How a process is run: with its output reported while it runs, and with its command announced. -/
structure Reporting where
  streaming : Bool
  announcing : Bool
  deriving DecidableEq, Repr

/-- Nothing is reported. -/
def Reporting.none : Reporting := ⟨false, false⟩

/-- Runs an executable and gives what it printed. -/
def runTool (how : Reporting) (executable : String) (args : List String) :
    Act ProcessError String := do
  let argv := executable :: args
  if how.announcing then Act.say (.status ("Running: " ++ Shell.line argv))
  match ← Act.start argv with
  | .barred => throw .nullInArgument
  | .child (.refused number) => throw (.notStarted ⟨number, executable⟩)
  | .child (.ran output code) =>
    if how.streaming then (Progress.messages output).forM fun m => Act.say (.status m)
    if code ≠ 0 then throw (.failed argv code)
    unless how.streaming do Act.say (.debug (executable ++ " exited with 0"))
    return output

/-! ## The version of an executable -/

/-- Why there is no version. -/
inductive ProbeError where
  | notInstalled (executable : String)
  | failed (executable : String) (e : ProcessError)
  | notStarted (e : OsError)
  /-- The executable printed nothing. -/
  | silent
  | nullInArgument
  deriving DecidableEq, Repr

/-- The text of the error. -/
def ProbeError.message : ProbeError → String
  | .notInstalled executable => executable ++ " not found"
  | .failed executable e => executable ++ " failed: " ++ e.message
  | .notStarted e => e.message
  | .silent => "list index out of range"
  | .nullInArgument => Path.nullMessage

/-- The error of a probe whose process gave nothing. -/
def ProbeError.ofProcess (executable : String) : ProcessError → ProbeError
  | .notStarted e => if e.number = OsError.noEntry then .notInstalled executable else .notStarted e
  | .failed argv code => .failed executable (.failed argv code)
  | .nullInArgument => .nullInArgument

/-- The version line of an executable. -/
def probeVersion (executable : String) : Act ProbeError String := do
  match ← Act.attempt (runTool .none executable ["-version"]) with
  | .error e => throw (.ofProcess executable e)
  | .ok output => match Text.firstLine? output with
    | some line => return Text.strip line
    | none => throw .silent

/-- The directory that keeps the answers of probes, in the directory that the environment names. A
text that holds the character NUL cannot stand in an environment. -/
def cacheDirectory? (environment : String) : Option Path :=
  let directory := Path.ofString environment
  if directory.hasNull then none else some (Path.below directory (.ofString "ffgraph-cache"))

/-- The key of an executable's version in the cache. -/
def versionKey (executable : String) : String := "__ffmpeg_version__" ++ executable

/-- The version line of an executable, from the cache if it is there. -/
def lookUpVersion (executable : String) : Act ProbeError String := do
  let v ← Act.remembered (versionKey executable) (Json.string <$> probeVersion executable)
  return v.text

end FilterGraph
