import FilterGraph.Host.Files
import FilterGraph.Host.Process
import FilterGraph.Text.Blank

/-!
# Sessions

The state that a row of conversions shares: the host, the files, the cache of answers from earlier
probes, the behaviour of the processes to come, the processes started so far, and everything said on
the way.

* `Act.start` starts a process: it takes the next behaviour and records the start, also when
  the start fails; for a vector that the host does not take only the attempt is recorded;
* `Act.remembered` answers from the cache or computes and stores;
* an `Event` is said once; where it goes depends on the `Sink` for status messages.
-/

namespace FilterGraph

/-! ## 1. What is said -/

/-- Something said during a session. -/
inductive Event where
  /-- A status message. -/
  | status (message : String)
  /-- A message for the log only. -/
  | debug (message : String)
  /-- A line on the standard output. -/
  | output (line : String)
  /-- A line on the standard error output. -/
  | error (line : String)
  deriving DecidableEq, Repr

/-- Where status messages go. -/
inductive Sink where
  /-- To the caller, one by one. -/
  | collected
  /-- To the terminal. -/
  | printed
  /-- To the log. -/
  | logged
  deriving DecidableEq, Repr

namespace Event

/-- The text of a status message on a terminal. A message that returns to the start of the line
and does not leave it stays open to be overwritten. -/
def printedStatus (message : String) : String :=
  if message.toList.contains '\r' && ! message.toList.contains '\n' then message
  else message ++ "\n"

/-- The status messages of a session. -/
def messages (events : List Event) : List String :=
  events.filterMap fun
    | status m => some m
    | _ => none

/-- The text on the standard output when status messages are printed. -/
def standardOutput (events : List Event) : String :=
  String.join (events.map fun
    | status m => printedStatus m
    | output l => l ++ "\n"
    | _ => "")

/-- The text on the standard error output. -/
def standardError (events : List Event) : String :=
  String.join (events.map fun
    | error l => l ++ "\n"
    | _ => "")

/-- The records of the log, each with its level. -/
def logRecords (sink : Sink) (events : List Event) : List (String × String) :=
  events.filterMap fun
    | debug m => some ("DEBUG", m)
    | status m => if sink = .logged then some ("INFO", m) else none
    | _ => none

end Event

/-! ## 2. The state -/

/-- The state of a row of conversions. -/
structure Session where
  host : Host
  files : Files
  /-- Answers by key; only texts count as answers. -/
  cache : List (String × Json)
  /-- The behaviour of the next processes; after them every process is silent and succeeds. -/
  children : List Child
  /-- The argument vectors of the starts so far, those that failed included. -/
  starts : List (List String)
  events : List Event

/-- A step of a session that can fail; what it did before it failed stays done. -/
abbrev Act (ε α : Type) := ExceptT ε (StateM Session) α

namespace Session

/-- A session of the system on some files, with nothing done. -/
def new (files : Files) : Session := ⟨.system, files, [], [], [], []⟩

/-- How many characters a text has at least that is kept in a file of its own. -/
def longText : Nat := 0x8000

/-- The stored answer at a key. A text from a file of its own has its newlines unified. -/
def answer? (s : Session) (key : String) : Option String :=
  match Entries.find? key s.cache with
  | some (.string t) => some (if longText ≤ t.length then Text.unifyNewlines t else t)
  | _ => none

/-- Stores a value at a key. -/
def remember (s : Session) (key : String) (v : Json) : Session :=
  { s with cache := Entries.set key v s.cache }

/-- Says something. -/
def say (s : Session) (e : Event) : Session := { s with events := s.events ++ [e] }

/-- What comes of the next start, with the vector `argv`. -/
def next (s : Session) (argv : List String) : Start :=
  if s.host.takes argv then .child (s.children.headD default) else .barred

/-- The behaviours that a start with the vector `argv` leaves. -/
def left (s : Session) (argv : List String) : List Child :=
  if s.host.takes argv then s.children.tail else s.children

/-- What comes of the next start, and the session after it. -/
def started (s : Session) (argv : List String) : Start × Session :=
  (s.next argv, { s with children := s.left argv, starts := s.starts ++ [argv] })

end Session

namespace Act

variable {ε : Type}

/-- Says something. -/
def say (e : Event) : Act ε Unit := modify (·.say e)

/-- Starts a process. -/
def start (argv : List String) : Act ε Start := modifyGet (·.started argv)

/-- The answer at a key, computed and stored unless a text is there. -/
def remembered (key : String) (compute : Act ε Json) : Act ε Json := do
  match (← get).answer? key with
  | some t => return .string t
  | none =>
    let v ← compute
    modify (·.remember key v)
    return v

/-- The outcome of a step as a value. -/
def attempt {ε' α : Type} (a : Act ε' α) : Act ε (Except ε' α) :=
  fun s => let (r, s) := a s; (.ok r, s)

end Act

end FilterGraph
