import FilterGraph.Schema.Check
import FilterGraph.Text.Blank
import FilterGraph.Text.Digits

/-!
# Verbosity and mode of a run

A run is for real or dry, and reports more or less of what it does. A level of verbosity is given
by number or by name; names are read in any case and between blanks, numbers also as texts.
-/

namespace FilterGraph

/-- How much is reported: nothing, the commands, or also what the processes print. -/
inductive Verbosity where
  | quiet
  | commands
  | output
  deriving DecidableEq, Repr, Inhabited

namespace Verbosity

/-- The number of a level. -/
def level : Verbosity → Nat
  | quiet => 0
  | commands => 1
  | output => 2

/-- The name of a level. -/
def name : Verbosity → String
  | quiet => "QUIET"
  | commands => "COMMANDS"
  | output => "OUTPUT"

/-- The level with a number. -/
def ofInt? (i : Int) : Option Verbosity :=
  if i = 0 then some quiet else if i = 1 then some commands else if i = 2 then some output else none

/-- Whether commands and versions are reported. -/
def showsCommands (v : Verbosity) : Bool := commands.level ≤ v.level

/-- Whether the output of processes is reported while they run. -/
def streamsOutput (v : Verbosity) : Bool := output.level ≤ v.level

/-- The letter in upper case, as far as names of levels can come of it: beside the ASCII letters
only the dotless i and the long s have an ASCII capital. -/
def upper (c : Char) : Char :=
  if c = 'ı' then 'I' else if c = 'ſ' then 'S' else c.toUpper

/-- The level whose name a text writes. -/
def ofName? (token : List Char) : Option Verbosity :=
  let t := String.ofList (token.map upper)
  if t = quiet.name then some quiet
  else if t = commands.name then some commands
  else if t = output.name then some output
  else none

/-- How many digits the number of a level may be written with. -/
def digitLimit : Nat := 4300

/-- The level that a text writes, by name or by number. -/
def ofText? (s : String) : Option Verbosity :=
  let token := Text.stripChars s.toList
  match ofName? token with
  | some v => some v
  | none =>
    if digitLimit < Text.countDigits token then none else (Text.readInteger? token).bind ofInt?

/-- The level that a number equals; truth values count as the numbers 0 and 1. -/
def ofNumber? : Json → Option Verbosity
  | .int i => ofInt? i
  | .float x => x.integer?.bind ofInt?
  | .bool b => ofInt? (if b then 1 else 0)
  | _ => none

/-- The message about a value that was to be the number of a level. -/
def numberMessage (v : Json) : String := v.literal ++ " is not a valid Verbosity"

/-- The message about anything else that is no level. -/
def formMessage : String := "verbosity must be one of quiet, commands, output, or 0/1/2"

open Schema

/-- The level that a number gives. -/
def checkInt (i : Int) : Checked Verbosity :=
  match ofInt? i with
  | some v => .ok v
  | none => Check.fail (.invalid (numberMessage (.int i)))

/-- The level that a value gives; truth values count as the numbers 0 and 1. -/
def check : Json → Checked Verbosity
  | .int i => checkInt i
  | .bool b => checkInt (if b then 1 else 0)
  | .string s => match ofText? s with
    | some v => .ok v
    | none => Check.fail (.invalid formMessage)
  | _ => Check.fail (.invalid formMessage)

end Verbosity

/-- How a conversion is run. -/
structure RunMode where
  verbosity : Verbosity
  dryRun : Bool
  deriving DecidableEq, Repr, Inhabited

namespace RunMode

open Schema

/-- The mode of a run that is quiet and for real. -/
def standard : RunMode := ⟨.quiet, false⟩

/-- The mode that a record describes, in which other fields may stand too. -/
def check : Json → Checked RunMode :=
  Check.record "RuntimeOptions" fun ms =>
    (Check.pair (Check.optional "verbosity" standard.verbosity Verbosity.check ms)
      (Check.optional "dry_run" standard.dryRun Check.bool ms)).map
      fun (verbosity, dryRun) => ⟨verbosity, dryRun⟩

end RunMode

end FilterGraph
