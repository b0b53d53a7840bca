import FilterGraph.CommandLine.Commands

/-!
# The program

Reads the document that the arguments name, performs the command on it, and prints what was said.
Directories are not created and processes are not started: without `--runtime.dry-run` a run ends
with the report that the executable was not found.
-/

namespace FilterGraph.Program

open CommandLine

/-- The text about the use of the program. -/
def usage : String :=
  "Usage: filtergraph (compile | run) [--pipeline] FILE [--cmd EXECUTABLE]\n" ++
    "  [--no-overwrite-output] [--runtime.verbosity LEVEL] [--runtime.dry-run]"

/-- The names along a directory's path. -/
def locationOf (directory : String) : Location := (Path.ofString directory).names

/-- The path of the document that a request names, made absolute. -/
def documentPath? (files : Files) (options : Json) : Option Path :=
  match options.member? "pipeline" with
  | some (.string s) =>
    (files.expandHome (.ofString s)).toOption.map (Path.below files.workingPath)
  | _ => none

/-- The files as far as they are known: the way to one document, and its bytes. -/
def withDocument (files : Files) (p : Path) (content : List UInt8) : Files :=
  match (files.makeDirectories true p.parent).1.write p content with
  | .ok files => files
  | .error _ => files

/-- A session that finds no executable. -/
def sessionOn (files : Files) : Session :=
  { Session.new files with children := [.refused OsError.noEntry, .refused OsError.noEntry] }

/-- Performs a task on a session: what was said, and the exit code. -/
def answer (task : Task) (options : Json) (surplus : Bool) (s : Session) : List Event × UInt32 :=
  match Job.check s.files options with
  | .error fault => ([.error fault.message], 1)
  | .ok (.error issues) => ([.error (Schema.report jobTitle .data issues)], 1)
  | .ok (.ok job) =>
    if surplus then ([.error usage], 1)
    else
      let (code, s) := perform task job s
      (s.events, match code with
        | .ok n => .ofNat n
        | .error _ => 1)

end FilterGraph.Program

open FilterGraph FilterGraph.CommandLine in
/-- Performs the request that the arguments make. -/
def main (argv : List String) : IO UInt32 := do
  match Request.ofArguments argv with
  | .help =>
    IO.println Program.usage
    return 0
  | .version =>
    IO.println versionText
    return 0
  | .unusable =>
    IO.eprintln Program.usage
    return 1
  | .indivisible =>
    IO.eprintln indivisibleMessage
    return 1
  | .helpOnQuestion =>
    IO.eprintln helpOnQuestionMessage
    return 1
  | .perform task options surplus =>
    let working := Program.locationOf (← IO.currentDir).toString
    let home := ((← IO.getEnv "HOME").map Program.locationOf).getD working
    let bare : Files := { Files.scratch working with home }
    let files ← match Program.documentPath? bare options with
      | none => pure bare
      | some p =>
        try pure (Program.withDocument bare p (← IO.FS.readBinFile p.text).toList)
        catch _ => pure bare
    let (events, code) := Program.answer task options surplus (Program.sessionOn files)
    IO.print (Event.standardOutput events)
    IO.eprint (Event.standardError events)
    return code
