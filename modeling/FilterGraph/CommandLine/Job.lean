import FilterGraph.Conversion.Verbosity
import FilterGraph.Command.Basic
import FilterGraph.Host.Files

/-!
# Jobs

A job is what a command is asked to do: where the document is, which executable to invoke, whether
to overwrite, and how to run. `Job.check` reads a job out of a record of options; the path of the
document is made absolute and has to lead to a file.
-/

namespace FilterGraph

/-- What is to be done with a document. -/
structure Job where
  pipeline : Path
  settings : Settings
  mode : RunMode
  deriving DecidableEq, Repr

/-- Why the options of a job cannot be checked at all. -/
inductive JobFault where
  /-- The path starts at the home directory of an unknown user. -/
  | unknownHome
  /-- The path cannot be followed. -/
  | unreadable (e : OsError)
  deriving DecidableEq, Repr

/-- The text of the fault. -/
def JobFault.message : JobFault → String
  | .unknownHome => "Could not determine home directory."
  | .unreadable e => e.message

/-- The name of the record that describes a job. -/
def jobTitle : String := "Options"

namespace Job

open Schema

/-- The path that a text writes, made absolute, which has to lead to a file. -/
def checkPath (fs : Files) (s : String) : Except JobFault (Checked Path) :=
  match fs.expandHome (.ofString s) with
  | .error .unknownUser => .error .unknownHome
  | .error .nullInName => .ok (Check.fail (.invalid Path.nullMessage))
  | .ok p =>
    let p := Path.below fs.workingPath p
    match fs.isFile p with
    | .ok true => .ok (.ok p)
    | .ok false => .ok (Check.fail (.invalid ("Pipeline path is not a file: " ++ p.text)))
    | .error e => .error (.unreadable e)

/-- The path of the document that a record of options names, if it is given as a text. -/
def checkDocument (fs : Files) (v : Json) : Except JobFault (Checked Path) :=
  match v.member? "pipeline" with
  | some (.string s) => checkPath fs s
  | _ => .ok (Check.fail .notPath)

/-- The job that a record of options describes. The document is looked for first, since a fault of
the path leaves nothing to report on the other fields. -/
def check (fs : Files) (v : Json) : Except JobFault (Checked Job) := do
  let document ← checkDocument fs v
  .ok (Check.record jobTitle (fun ms =>
    (Check.pair (Check.required "pipeline" (fun _ => document) ms)
      (Check.pair (Check.optional "cmd" Settings.standard.executable Check.nonEmptyString ms)
        (Check.pair (Check.optional "overwrite_output" Settings.standard.overwrite Check.bool ms)
          (Check.pair (Check.optional "runtime" .standard RunMode.check ms)
            (Check.noExtras ["pipeline", "cmd", "overwrite_output", "runtime"] ms))))).map
      fun (pipeline, executable, overwrite, mode, _) =>
        ⟨pipeline, ⟨executable, overwrite⟩, mode⟩) v)

end Job

end FilterGraph
