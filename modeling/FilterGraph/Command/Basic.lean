import FilterGraph.Command.Reference

/-!
# Commands

A command before it is flattened into a vector of arguments: one fragment for each input, one
statement for each filter, one fragment for each output.

* `Statement.text` writes a statement, `Statement.joined` puts semicolons between statements;
* `Command.arguments` lays the parts out; the filter graph is left out when it is empty;
* an output that takes the whole first input and nothing else needs no map.
-/

namespace FilterGraph

/-- The options of an input and the path it reads. -/
structure InputFragment where
  params : Params
  path : Option String
  deriving DecidableEq, Repr

/-- The text of a path; one that was never given has a text too. -/
def pathText : Option String → String
  | some p => p
  | none => "None"

/-- The arguments of an input. -/
def InputFragment.arguments (f : InputFragment) : List String :=
  f.params.arguments ++ ["-i", pathText f.path]

/-- One filter with the streams it takes and the pads it declares. -/
structure Statement where
  inputs : List Reference
  expression : String
  pads : List String
  deriving DecidableEq, Repr

/-- The text of a statement. -/
def Statement.text (s : Statement) : String :=
  String.join (s.inputs.map Reference.text) ++ s.expression ++ String.join s.pads

/-- The text of several statements. -/
def Statement.joined (statements : List Statement) : String :=
  ";".intercalate (statements.map Statement.text)

/-- The streams an output takes, its options and the path it writes. -/
structure OutputFragment where
  references : List Reference
  params : Params
  path : Option String
  deriving DecidableEq, Repr

/-- The reference that is taken without a map. -/
def impliedReference : String := "0"

/-- The maps of an output. -/
def OutputFragment.maps (f : OutputFragment) : List String :=
  f.references.flatMap fun r =>
    if r.text ≠ impliedReference ∨ 1 < f.references.length then ["-map", r.text] else []

/-- The arguments of an output. -/
def OutputFragment.arguments (f : OutputFragment) : List String :=
  f.maps ++ f.params.arguments ++ [pathText f.path]

/-- What does not come from the graph: the executable, and whether outputs are overwritten. -/
structure Settings where
  executable : String
  overwrite : Bool
  deriving DecidableEq, Repr

/-- The executable `ffmpeg`, overwriting. -/
def Settings.standard : Settings := ⟨"ffmpeg", true⟩

instance : Inhabited Settings := ⟨.standard⟩

/-- A command. -/
structure Command where
  inputs : List InputFragment
  statements : List Statement
  outputs : List OutputFragment
  deriving DecidableEq, Repr

namespace Command

/-- The text of the filter graph. -/
def filterText (c : Command) : String := Statement.joined c.statements

/-- The option of the filter graph. -/
def filterOption : String := "-filter_complex"

/-- The arguments of the filter graph. -/
def filterArguments (c : Command) : List String :=
  if c.filterText.isEmpty then [] else [filterOption, c.filterText]

/-- The arguments after the executable. -/
def rest (settings : Settings) (c : Command) : List String :=
  ["-hide_banner"] ++ c.inputs.flatMap InputFragment.arguments ++ c.filterArguments ++
    c.outputs.flatMap OutputFragment.arguments ++ (if settings.overwrite then ["-y"] else [])

/-- The vector of arguments, the executable first. -/
def arguments (settings : Settings) (c : Command) : List String :=
  settings.executable :: c.rest settings

end Command

end FilterGraph
