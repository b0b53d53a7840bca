import FilterGraph.Text.Cut

/-!
# Paths

A path is a root, which may be missing, and the names below it. Reading a path drops empty names
and the name `.`, and keeps `..`, whose meaning depends on the files that are there.

* Two leading slashes are a root of their own; any other number of them is the one root.
* The path without root and names is written `.`.
-/

namespace FilterGraph

/-- A path. -/
structure Path where
  /-- The text of the root: nothing, one slash, or two. -/
  root : String
  names : List String
  deriving DecidableEq, Repr, Inhabited

namespace Path

/-- The text of the root of a path. -/
def rootOf : List Char → String
  | '/' :: '/' :: '/' :: _ => "/"
  | '/' :: '/' :: _ => "//"
  | '/' :: _ => "/"
  | _ => ""

/-- Whether a piece of a path is a name. -/
def isName (piece : List Char) : Bool := ! piece.isEmpty && piece != ['.']

/-- The path that a text writes. -/
def ofString (s : String) : Path :=
  ⟨rootOf s.toList, ((Text.pieces '/' s.toList).filter isName).map String.ofList⟩

/-- The text of a path. -/
def text (p : Path) : String :=
  if p.root.isEmpty && p.names.isEmpty then "." else p.root ++ "/".intercalate p.names

/-- Whether a path has a root. -/
def isAbsolute (p : Path) : Bool := ! p.root.isEmpty

/-- The path without its last name; a path without names is its own parent. -/
def parent (p : Path) : Path := { p with names := p.names.dropLast }

/-- The path seen from a directory. -/
def below (directory p : Path) : Path :=
  if p.isAbsolute then p else { directory with names := directory.names ++ p.names }

/-- Whether the text of a path holds the character that no file name can hold. -/
def hasNull (p : Path) : Bool := p.text.toList.contains '\x00'

/-- The report on a name that holds it. -/
def nullMessage : String := "embedded null byte"

end Path

end FilterGraph
