import FilterGraph.Json.Basic

/-!
# Parameters of a node

A node carries either named options in their given order or a row of literal arguments; both are
texts by the time they are in the graph.

* `Params.ofJson` makes parameters of any JSON value that has a reading as such;
* `Params.encoded` tells the two forms apart, also when they are empty.
-/

namespace FilterGraph

/-- The parameters of a node. -/
inductive Params where
  /-- Named options in the order given. -/
  | options (entries : List (String × String))
  /-- Arguments that are passed as they are. -/
  | literals (args : List String)
  deriving DecidableEq, Repr

instance : Inhabited Params := ⟨.options []⟩

/-- Why a value is no set of parameters. -/
inductive ParamsError where
  /-- A lone text would be taken apart into characters. -/
  | lone
  /-- A value without members. -/
  | scalar (kind : String)
  deriving DecidableEq, Repr

/-- The text of the error. -/
def ParamsError.message : ParamsError → String
  | .lone => "params must be a mapping or a sequence of arguments, not a string"
  | .scalar kind => s!"'{kind}' object is not iterable"

namespace Params

/-- The parameters that a value stands for: none for null, options for an object, literal
arguments for an array. -/
def ofJson : Json → Except ParamsError Params
  | .null => .ok (.options [])
  | .object members => .ok (.options (members.map fun m => (m.1, m.2.text)))
  | .array items => .ok (.literals (items.map Json.text))
  | .string _ => .error .lone
  | v => .error (.scalar v.kindName)

/-- The parameters as a tagged JSON value. -/
def encoded : Params → Json
  | .options entries => .object [("kwargs", .object (entries.map fun e => (e.1, .string e.2)))]
  | .literals args => .object [("args", .array (args.map .string))]

/-- The arguments that parameters write: `-key value` for an option, a literal as it is. -/
def arguments : Params → List String
  | .options entries => entries.flatMap fun e => ["-" ++ e.1, e.2]
  | .literals args => args

/-- The settings of a filter: `key=value` for an option, a literal as it is. -/
def settings : Params → List String
  | .options entries => entries.map fun e => e.1 ++ "=" ++ e.2
  | .literals args => args

end Params

/-- Tags any container of parameters: an object is a set of options, an array a row of literals,
and a text a row of its characters. A scalar is no container, and its kind is reported. -/
def encodeContainer : Json → Except String Json
  | .object members => .ok (.object [("kwargs", .object members)])
  | .array items => .ok (.object [("args", .array items)])
  | .string s => .ok (.object [("args", .array (s.toList.map fun c => .string (.ofList [c])))])
  | v => .error s!"Unsupported parameter container: {v.kindName}"

end FilterGraph
