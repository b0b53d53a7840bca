import FilterGraph.Json.Basic

/-!
# Issues with a JSON value

What can be wrong with a value that is to have a certain shape, and where in the value it is wrong.
The wording of three kinds of issue depends on whether the value was given as data or as JSON text.
-/

namespace FilterGraph.Schema

/-- One step from a value to a part of it. -/
inductive Step where
  | key (name : String)
  | index (n : Nat)
  deriving DecidableEq, Repr

/-- Whether a value was given as data or as JSON text. -/
inductive Origin where
  | data
  | text
  deriving DecidableEq, Repr

/-- A kind of issue. -/
inductive Problem where
  | missing
  | extra
  | notString
  | emptyString
  | notInteger
  | notNumber
  | notDictionary
  | notList
  | notRecord (name : String)
  | emptyDictionary
  | emptyList
  | notSelector
  | notBoolean
  | unreadableBoolean
  | notPath
  | invalid (message : String)
  | notJson
  deriving DecidableEq, Repr

namespace Problem

/-- The tag of a kind of issue. -/
def tag : Problem → String
  | missing => "missing"
  | extra => "extra_forbidden"
  | notString => "string_type"
  | emptyString => "string_too_short"
  | notInteger => "int_type"
  | notNumber => "float_type"
  | notDictionary => "dict_type"
  | notList => "list_type"
  | notRecord _ => "model_type"
  | emptyDictionary | emptyList => "too_short"
  | notSelector => "enum"
  | notBoolean => "bool_type"
  | unreadableBoolean => "bool_parsing"
  | notPath => "path_type"
  | invalid _ => "value_error"
  | notJson => "json_invalid"

/-- The wording of a kind of issue. -/
def message (origin : Origin) : Problem → String
  | missing => "Field required"
  | extra => "Extra inputs are not permitted"
  | notString => "Input should be a valid string"
  | emptyString => "String should have at least 1 character"
  | notInteger => "Input should be a valid integer"
  | notNumber => "Input should be a valid number"
  | notDictionary => match origin with
    | .data => "Input should be a valid dictionary"
    | .text => "Input should be an object"
  | notList => match origin with
    | .data => "Input should be a valid list"
    | .text => "Input should be a valid array"
  | notRecord name => match origin with
    | .data => "Input should be a valid dictionary or instance of " ++ name
    | .text => "Input should be an object"
  | emptyDictionary => "Dictionary should have at least 1 item after validation, not 0"
  | emptyList => "List should have at least 1 item after validation, not 0"
  | notSelector => "Input should be 'a', 'v' or 's'"
  | notBoolean => "Input should be a valid boolean"
  | unreadableBoolean => "Input should be a valid boolean, unable to interpret input"
  | notPath => "Input is not a valid path for <class 'pathlib.Path'>"
  | invalid message => "Value error, " ++ message
  | notJson => "Invalid JSON"

end Problem

/-- An issue at a place. -/
structure Issue where
  place : List Step
  problem : Problem
  deriving DecidableEq, Repr

/-- The text of a step. -/
def Step.text : Step → String
  | .key name => name
  | .index n => toString n

/-- The report on the issues of a value that was to be a `title`: a line that counts them, then a
line for each place and one for what is wrong there. -/
def report (title : String) (origin : Origin) (issues : List Issue) : String :=
  let count := issues.length
  let heading := toString count ++ (if count = 1 then " validation error for " else
    " validation errors for ") ++ title
  let lines := issues.flatMap fun i =>
    [".".intercalate (i.place.map Step.text), "  " ++ i.problem.message origin]
  "\n".intercalate (heading :: lines)

end FilterGraph.Schema
