import FilterGraph.Host.OsError
import FilterGraph.Host.Path
import FilterGraph.Json.Basic

/-!
# Processes

How a process behaves from the outside: it cannot be started, or it prints a text and ends with a
code. A negative code tells the signal that ended it. Which argument vectors there can be processes
for is up to the host.
-/

namespace FilterGraph

/-- The behaviour of a process. -/
inductive Child where
  /-- The start fails with an error number. -/
  | refused (number : Int)
  /-- The process prints a text, here as its reader sees it, and ends with a code. -/
  | ran (output : String) (code : Int)
  deriving DecidableEq, Repr

/-- A process that prints nothing and succeeds. -/
instance : Inhabited Child := ⟨.ran "" 0⟩

/-- Who starts the processes. -/
inductive Host where
  /-- The system, which has no process for an argument that holds the character NUL. -/
  | system
  /-- A rehearsal, in which processes behave as written down whatever their arguments are. -/
  | rehearsal
  deriving DecidableEq, Repr

/-- Whether the host takes an argument vector, the executable first. -/
def Host.takes : Host → List String → Bool
  | .system, argv => argv.all fun a => ! a.toList.contains '\x00'
  | .rehearsal, _ => true

/-- What comes of a start. -/
inductive Start where
  /-- The host does not take the argument vector, and there is no process. -/
  | barred
  | child (c : Child)
  deriving DecidableEq, Repr

/-- Why a process has no output to use. -/
inductive ProcessError where
  | notStarted (e : OsError)
  | failed (argv : List String) (code : Int)
  | nullInArgument
  deriving DecidableEq, Repr

/-- The names of the signals. -/
def signalNames : List (Nat × String) := [
  (1, "SIGHUP"), (2, "SIGINT"), (3, "SIGQUIT"), (4, "SIGILL"), (5, "SIGTRAP"), (6, "SIGABRT"),
  (7, "SIGBUS"), (8, "SIGFPE"), (9, "SIGKILL"), (10, "SIGUSR1"), (11, "SIGSEGV"),
  (12, "SIGUSR2"), (13, "SIGPIPE"), (14, "SIGALRM"), (15, "SIGTERM"), (16, "SIGSTKFLT"),
  (17, "SIGCHLD"), (18, "SIGCONT"), (19, "SIGSTOP"), (20, "SIGTSTP"), (21, "SIGTTIN"),
  (22, "SIGTTOU"), (23, "SIGURG"), (24, "SIGXCPU"), (25, "SIGXFSZ"), (26, "SIGVTALRM"),
  (27, "SIGPROF"), (28, "SIGWINCH"), (29, "SIGIO"), (30, "SIGPWR"), (31, "SIGSYS"),
  (34, "SIGRTMIN"), (64, "SIGRTMAX")]

/-- How a process with a code other than zero ended. -/
def endingText (code : Int) : String :=
  if 0 ≤ code then s!"returned non-zero exit status {code}."
  else match signalNames.lookup code.natAbs with
    | some name => s!"died with <Signals.{name}: {code.natAbs}>."
    | none => s!"died with unknown signal {code.natAbs}."

/-- The text of the error. -/
def ProcessError.message : ProcessError → String
  | .notStarted e => e.message
  | .failed argv code => "Command '" ++ Json.vectorLiteral argv ++ "' " ++ endingText code
  | .nullInArgument => Path.nullMessage

end FilterGraph
