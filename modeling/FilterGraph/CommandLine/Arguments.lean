import FilterGraph.CommandLine.Job
import FilterGraph.Text.Numeral

/-!
# Command-line arguments

The arguments name a command and give its options, by keyword or by position:

* an option takes its value after `=` or from the next word, which must not look like an option;
* a flag stands alone or takes a truth value after `=`, and its negation means the opposite;
* the remaining words are the options in their fixed order, up to the first one given by keyword;
* after the word `--` every word is a value by position;
* a word that asks for help or for the version counts wherever it stands behind a command, and
  help is given on commands, not on such words.

What the values mean is left to `Job.check`. Words that no option can take make the arguments
unusable only after that check.
-/

namespace FilterGraph.CommandLine

/-- The commands. -/
inductive Task where
  | compile
  | run
  deriving DecidableEq, Repr

/-- The task with a name. -/
def Task.ofName? (s : String) : Option Task :=
  if s = "compile" then some .compile else if s = "run" then some .run else none

/-- The options of a command. -/
inductive OptionName where
  | pipeline
  | cmd
  | overwriteOutput
  | verbosity
  | dryRun
  /-- The verbosity and the dry run together, which have no common value. -/
  | runtime
  /-- The receiver of status messages, which no word can name. -/
  | callback
  deriving DecidableEq, Repr

/-- The options of a command in the order in which words by position fill them. -/
def Task.places : Task → List OptionName
  | .compile => [.pipeline, .cmd, .overwriteOutput, .verbosity, .dryRun]
  | .run => [.pipeline, .cmd, .overwriteOutput, .verbosity, .dryRun, .callback]

/-- What a keyword does. -/
inductive Keyword where
  /-- Takes a value for an option. -/
  | value (o : OptionName)
  /-- Sets an option that is true or false. -/
  | flag (o : OptionName) (b : Bool)
  deriving DecidableEq, Repr

/-- The keywords that give options of every command. -/
def keywords : List (String × Keyword) := [
  ("--pipeline", .value .pipeline),
  ("--cmd", .value .cmd),
  ("--overwrite-output", .flag .overwriteOutput true),
  ("--runtime", .value .runtime),
  ("--runtime.verbosity", .value .verbosity),
  ("--runtime.dry-run", .flag .dryRun true)]

/-- The keywords that give options of a command. -/
def Task.keywords : Task → List (String × Keyword)
  | .compile => CommandLine.keywords
  | .run => CommandLine.keywords ++ [("--status-callback", .value .callback)]

/-- The keywords that negate flags. -/
def negations : List (String × Keyword) := [
  ("--no-overwrite-output", .flag .overwriteOutput false),
  ("--runtime.no-dry-run", .flag .dryRun false)]

/-- The keyword of a command with a name. An underscore may stand for a hyphen, except in a
negation. -/
def Keyword.ofName? (task : Task) (name : List Char) : Option Keyword :=
  (task.keywords.lookup (.ofList (name.map fun c => if c = '_' then '-' else c))).or
    (negations.lookup (.ofList name))

/-- The values given to options. -/
abbrev Given := List (OptionName × Json)

/-- Whether an option has its value. -/
def isGiven (o : OptionName) (given : Given) : Bool := given.any (·.1 == o)

/-- Gives an option its value; a second value is refused. -/
def give (o : OptionName) (v : Json) (given : Given) : Option Given :=
  if isGiven o given then none else some (given ++ [(o, v)])

/-! ## 1. Words -/

/-- The word after which every word is a value by position. -/
def delimiter : String := "--"

/-- Whether a word starts like a keyword. -/
def startsWithHyphen (w : String) : Bool := w.toList.head? = some '-'

/-- Whether a word looks like an option: it starts with a hyphen and is no negative number. The
imaginary unit with a hyphen counts as an option of one letter. -/
def looksLikeOption (w : String) : Bool :=
  startsWithHyphen w && (w.toLower = "-j" || ! Text.isNumeral w.toList)

/-- The options of one letter that a word writes together after a single hyphen. Any other word
is kept. -/
def separate (w : String) : List String :=
  match w.toList with
  | '-' :: c :: d :: r =>
    if c = '-' ∨ '=' ∈ c :: d :: r then [w]
    else (c :: d :: r).map fun c => .ofList ['-', c]
  | _ => [w]

/-- The truth value that a word behind a flag writes. -/
def truth? (v : List Char) : Option Bool :=
  let word := String.ofList (v.map Char.toLower)
  if ["yes", "y", "1", "true", "t"].contains word then some true
  else if ["no", "n", "0", "false", "f"].contains word then some false
  else none

/-! ## 2. Values by keyword -/

/-- Sorts words into the values given by keyword and the words that remain. -/
def readWords (task : Task) (given : Given) : List String → Option (Given × List String)
  | [] => some (given, [])
  | w :: r =>
    if w = delimiter then some (given, w :: r)
    else if ! startsWithHyphen w then (readWords task given r).map fun p => (p.1, w :: p.2)
    else
      let (name, attached) := Text.cut '=' w.toList
      match Keyword.ofName? task name, attached with
      | none, _ => (readWords task given r).map fun p => (p.1, separate w ++ p.2)
      | some (.value o), some v => do readWords task (← give o (.string (.ofList v)) given) r
      | some (.value o), none => match r with
        | v :: r =>
          if looksLikeOption v then none else do readWords task (← give o (.string v) given) r
        | [] => none
      | some (.flag o b), none => do readWords task (← give o (.bool b) given) r
      | some (.flag o b), some v => do
        let t ← truth? v
        readWords task (← give o (.bool (b == t)) given) r

/-! ## 3. Values by position -/

/-- A word that is a value by position; a free one stands behind the delimiter. -/
structure Positional where
  text : String
  free : Bool
  deriving DecidableEq, Repr

/-- The words before the delimiter and those behind it. -/
def positionals : List String → List Positional
  | [] => []
  | w :: r => if w = delimiter then r.map (⟨·, true⟩) else ⟨w, false⟩ :: positionals r

/-- What words give: values of options, and whether words are left that no option can take. -/
structure Reading where
  given : Given
  surplus : Bool
  deriving Repr

/-- Fills options by position. An option that has its value is passed over, but then no other
option may be filled. -/
def fill (given : Given) (passed : Bool) : List OptionName → List Positional → Option Reading
  | [], words => some ⟨given, ! words.isEmpty⟩
  | o :: os, words =>
    if isGiven o given then fill given true os words
    else if passed then none
    else match words with
      | [] => some ⟨given, false⟩
      | w :: r =>
        if ! w.free && looksLikeOption w.text then none
        else do
          let given ← give o (.string w.text) given
          if r.isEmpty then some ⟨given, false⟩ else fill given false os r

/-- What the words behind a command give. The delimiter alone counts as a word by position. -/
def Reading.ofWords? (task : Task) (words : List String) : Option Reading := do
  let (given, rest) ← readWords task [] words
  if rest.isEmpty then some ⟨given, false⟩ else fill given false task.places (positionals rest)

/-- The record of the given options. -/
def recordOf (given : Given) : Json :=
  let field (name : String) (o : OptionName) : List (String × Json) :=
    match given.lookup o with
    | some v => [(name, v)]
    | none => []
  let runtime := field "verbosity" .verbosity ++ field "dry_run" .dryRun
  .object (field "pipeline" .pipeline ++ field "cmd" .cmd ++
    field "overwrite_output" .overwriteOutput ++
    (if runtime.isEmpty then [] else [("runtime", .object runtime)]))

/-! ## 4. Requests -/

/-- What the arguments ask for. -/
inductive Request where
  | help
  | version
  /-- To perform a task with a record of options. With a surplus of words the arguments are unusable
  as soon as the options have been checked. -/
  | perform (task : Task) (options : Json) (surplus : Bool)
  /-- A value is given to the run options together. -/
  | indivisible
  /-- Help is asked on a word that itself asks for help or for the version. -/
  | helpOnQuestion
  | unusable
  deriving Repr

/-- The report on a value that is given to the run options together. -/
def indivisibleMessage : String := "tuple index out of range"

/-- Whether a word asks for help. -/
def asksForHelp (w : String) : Bool := w = "--help" || w = "-h"

/-- The version of the program. -/
def versionText : String := "0.1.0"

/-- Whether a word asks for the version. -/
def asksForVersion (w : String) : Bool := w = "--version"

/-- Whether a word asks for something instead of naming a command. -/
def isQuestion (w : String) : Bool := asksForHelp w || asksForVersion w

/-- The report on a question for help on a question. -/
def helpOnQuestionMessage : String := "name 'Console' is not defined"

/-- The words without the question for help that is answered: the long word goes before the
short one. -/
def withoutHelp (words : List String) : List String :=
  if words.contains "--help" then words.erase "--help" else words.erase "-h"

/-- The request for help on what the first of the other words names. -/
def Request.helpOn : List String → Request
  | w :: _ => if isQuestion w then .helpOnQuestion else .help
  | [] => .help

/-- The request that arguments without a command make: beside the question for help nothing else
may stand, except that a first question may come before it. -/
def Request.withoutTask : List String → Request
  | [] => .help
  | w :: r =>
    if (w :: r).any asksForHelp then
      if isQuestion w ∧ (withoutHelp r).isEmpty then .helpOn (withoutHelp (w :: r)) else .unusable
    else if (w :: r).any asksForVersion then .version
    else .unusable

/-- The request that the words behind a command make. -/
def Request.ofWords (task : Task) (words : List String) : Request :=
  if words.any asksForHelp then .helpOn (withoutHelp words)
  else if words.any asksForVersion then .version
  else match Reading.ofWords? task words with
    | none => .unusable
    | some r =>
      if isGiven .runtime r.given then .indivisible
      else .perform task (recordOf r.given) (r.surplus || isGiven .callback r.given)

/-- The request that the arguments make. -/
def Request.ofArguments (argv : List String) : Request :=
  match argv with
  | [] => .help
  | name :: r => match Task.ofName? name with
    | some task => .ofWords task r
    | none => .withoutTask argv

end FilterGraph.CommandLine
