import FilterGraph.Document.Address
import FilterGraph.Graph.Params

/-!
# The shape of a pipeline document

A document names its inputs and filters and lists its outputs. This file fixes the records of a
document and reads them out of a JSON value; what the addresses mean is a matter of
`Document/Rules`.

* Parameters keep their numbers as numbers until the graph is built.
* A value that is neither a dictionary nor a list of parameters is reported under both forms.
-/

namespace FilterGraph

open Schema

/-! ## 1. Parameters -/

/-- A parameter of a document. -/
inductive ParamValue where
  | text (s : String)
  | int (i : Int)
  | float (x : Binary64)
  deriving DecidableEq, Repr

namespace ParamValue

/-- The text of a parameter. -/
def shown : ParamValue → String
  | .text s => s
  | .int i => toString i
  | .float x => x.text

/-- The name of the kind of a parameter. -/
def kindName : ParamValue → String
  | .text _ => "str"
  | .int _ => "int"
  | .float _ => "float"

/-- A text or a number; truth values are no numbers. -/
def check : Json → Checked ParamValue
  | .string s => .ok (.text s)
  | .int i => .ok (.int i)
  | .float x => .ok (.float x)
  | _ => .error [⟨[.key "str"], .notString⟩, ⟨[.key "int"], .notInteger⟩,
      ⟨[.key "float"], .notNumber⟩]

end ParamValue

/-- The parameters of a document's input, filter or output. -/
inductive EntryParams where
  | options (entries : List (String × ParamValue))
  | literals (args : List ParamValue)
  deriving DecidableEq, Repr

instance : Inhabited EntryParams := ⟨.options []⟩

namespace EntryParams

/-- The parameters as the graph takes them. -/
def toParams : EntryParams → Params
  | .options entries => .options (entries.map fun e => (e.1, e.2.shown))
  | .literals args => .literals (args.map ParamValue.shown)

/-- A dictionary or a list of parameters. -/
def check (v : Json) : Checked EntryParams :=
  let asOptions := Check.under (.key "dict[str,union[str,int,float]]")
    (Check.dictionary ParamValue.check v)
  let asLiterals := Check.under (.key "list[union[str,int,float]]")
    (Check.list ParamValue.check v)
  match asOptions, asLiterals with
  | .ok entries, _ => .ok (.options entries)
  | .error _, .ok args => .ok (.literals args)
  | .error e, .error f => .error (e ++ f)

end EntryParams

/-! ## 2. Records -/

/-- A media input. -/
structure InputEntry where
  path : String
  params : EntryParams
  deriving DecidableEq, Repr

/-- A filter applied to one or more streams. -/
structure FilterEntry where
  name : String
  inputs : List StreamAddress
  params : EntryParams
  deriving DecidableEq, Repr

/-- A media output fed by one or more streams. -/
structure OutputEntry where
  path : String
  inputs : List StreamAddress
  params : EntryParams
  deriving DecidableEq, Repr

/-- A whole document; ids are in the order of the document. -/
structure Document where
  inputs : List (String × InputEntry)
  filters : List (String × FilterEntry)
  outputs : List OutputEntry
  deriving DecidableEq, Repr, Inhabited

/-- Parameters that may be left out. -/
def checkParams (ms : List (String × Json)) : Checked EntryParams :=
  Check.optional "params" default EntryParams.check ms

/-- The streams that feed a filter or an output. -/
def checkInputs (ms : List (String × Json)) : Checked (List StreamAddress) :=
  Check.required "inputs" (Check.nonEmptyList StreamAddress.check) ms

/-- An input of a document. -/
def InputEntry.check : Json → Checked InputEntry :=
  Check.record "InputSpec" fun ms =>
    (Check.pair (Check.required "path" Check.nonEmptyString ms)
      (Check.pair (checkParams ms) (Check.noExtras ["path", "params"] ms))).map
      fun (path, params, _) => ⟨path, params⟩

/-- A filter of a document. -/
def FilterEntry.check : Json → Checked FilterEntry :=
  Check.record "FilterSpec" fun ms =>
    (Check.pair (Check.required "name" Check.nonEmptyString ms)
      (Check.pair (checkInputs ms)
        (Check.pair (checkParams ms) (Check.noExtras ["name", "inputs", "params"] ms)))).map
      fun (name, inputs, params, _) => ⟨name, inputs, params⟩

/-- An output of a document. -/
def OutputEntry.check : Json → Checked OutputEntry :=
  Check.record "OutputSpec" fun ms =>
    (Check.pair (Check.required "path" Check.nonEmptyString ms)
      (Check.pair (checkInputs ms)
        (Check.pair (checkParams ms) (Check.noExtras ["path", "inputs", "params"] ms)))).map
      fun (path, inputs, params, _) => ⟨path, inputs, params⟩

/-- The shape of a document. -/
def Document.check : Json → Checked Document :=
  Check.record "PipelineSpec" fun ms =>
    (Check.pair (Check.required "inputs" (Check.nonEmptyDictionary InputEntry.check) ms)
      (Check.pair (Check.optional "filters" [] (Check.dictionary FilterEntry.check) ms)
        (Check.pair (Check.required "outputs" (Check.nonEmptyList OutputEntry.check) ms)
          (Check.noExtras ["inputs", "filters", "outputs"] ms)))).map
      fun (inputs, filters, outputs, _) => ⟨inputs, filters, outputs⟩

end FilterGraph
