import FilterGraph.Json.Basic

/-!
# The canonical text of a JSON value

One text for each value, up to the order of object members: no blanks, members sorted by the code
points of their names, and in strings only the quote, the backslash and the control characters
below U+0020 are escaped.
-/

namespace FilterGraph.Json

/-- One character inside a JSON string. -/
def escapedChar (c : Char) : List Char :=
  if c = '"' then ['\\', '"']
  else if c = '\\' then ['\\', '\\']
  else if c = '\n' then ['\\', 'n']
  else if c = '\r' then ['\\', 'r']
  else if c = '\t' then ['\\', 't']
  else if c = '\x08' then ['\\', 'b']
  else if c = '\x0c' then ['\\', 'f']
  else if c.toNat < 0x20 then '\\' :: 'u' :: Text.hexDigits 4 c.toNat
  else [c]

/-- A JSON string. -/
def stringChars (s : String) : List Char := '"' :: s.toList.flatMap escapedChar ++ ['"']

/-- The JSON text of a number; the three values that are not finite have names. -/
def floatChars (x : Binary64) : List Char :=
  match x.decode with
  | .notANumber => "NaN".toList
  | .infinite negative => (if negative then "-Infinity" else "Infinity").toList
  | .finite .. => x.text.toList

/-- Texts with commas between them. -/
def commaJoin : List (List Char) → List Char
  | [] => []
  | [t] => t
  | t :: u :: r => t ++ ',' :: commaJoin (u :: r)

/-- Members in the order of their names. -/
def sortMembers {α : Type} (members : List (String × α)) : List (String × α) :=
  members.mergeSort fun a b => decide (a.1 ≤ b.1)

mutual

/-- The canonical text of a value. -/
def canonicalChars : Json → List Char
  | .null => "null".toList
  | .bool b => (if b then "true" else "false").toList
  | .int i => (toString i).toList
  | .float x => floatChars x
  | .string s => stringChars s
  | .array items => '[' :: commaJoin (canonicalItems items) ++ [']']
  | .object members =>
    '{' :: commaJoin ((sortMembers (canonicalMembers members)).map
      fun m => stringChars m.1 ++ ':' :: m.2) ++ ['}']

/-- The canonical texts of the items of an array. -/
def canonicalItems : List Json → List (List Char)
  | [] => []
  | v :: r => canonicalChars v :: canonicalItems r

/-- The names of an object's members with the canonical texts of their values. -/
def canonicalMembers : List (String × Json) → List (String × List Char)
  | [] => []
  | (k, v) :: r => (k, canonicalChars v) :: canonicalMembers r

end

/-- The canonical text of a value. -/
def canonical (v : Json) : String := .ofList (canonicalChars v)

end FilterGraph.Json
