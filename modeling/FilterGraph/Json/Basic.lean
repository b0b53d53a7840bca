import FilterGraph.Number.Shortest
import FilterGraph.Text.Quoted
import FilterGraph.Entries

/-!
# JSON values

Values keep what a text of theirs shows: an integer is not a floating-point number of the same
size, and an object keeps the order of its members, also of several with one name.

* `Json.literal` writes a value as a listing shows it (`[1, 'a', None]`), `Json.text` the same but
  a string as itself;
* `Json.kindName` is the name under which error messages speak of a kind of value.
-/

namespace FilterGraph

/-- A JSON value. -/
inductive Json where
  | null
  | bool (b : Bool)
  | int (i : Int)
  | float (x : Binary64)
  | string (s : String)
  | array (items : List Json)
  | object (members : List (String × Json))
  deriving Repr, Inhabited

namespace Json

/-! ## 1. Access -/

/-- The value of a member of an object; of several with one name, the last. -/
def member? (name : String) : Json → Option Json
  | .object members => Entries.find? name members.reverse
  | _ => none

/-- The name of a value's kind in messages. -/
def kindName : Json → String
  | .null => "NoneType"
  | .bool _ => "bool"
  | .int _ => "int"
  | .float _ => "float"
  | .string _ => "str"
  | .array _ => "list"
  | .object _ => "dict"

/-! ## 2. Listings -/

mutual

/-- A value as a listing shows it. -/
def literal : Json → String
  | .null => "None"
  | .bool b => if b then "True" else "False"
  | .int i => toString i
  | .float x => x.text
  | .string s => Text.quoted s
  | .array items => "[" ++ ", ".intercalate (itemLiterals items) ++ "]"
  | .object members => "\x7b" ++ ", ".intercalate (memberLiterals members) ++ "\x7d"

/-- The listings of the items of an array. -/
def itemLiterals : List Json → List String
  | [] => []
  | v :: r => literal v :: itemLiterals r

/-- The listings of the members of an object. -/
def memberLiterals : List (String × Json) → List String
  | [] => []
  | (k, v) :: r => (Text.quoted k ++ ": " ++ literal v) :: memberLiterals r

end

/-- The text of a value: a string is its own text, any other value has its listing. -/
def text : Json → String
  | .string s => s
  | v => literal v

/-- The listing of an argument vector. -/
def vectorLiteral (words : List String) : String := literal (.array (words.map .string))

end Json

end FilterGraph
