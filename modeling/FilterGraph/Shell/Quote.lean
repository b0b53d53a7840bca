import FilterGraph.Command.Basic

/-!
# Commands as shell text

A command is displayed as one line that a POSIX shell splits into the same words.

* A word of safe characters stands as it is, any other between single quotes; a single quote inside
  closes the quotes, stands between double quotes, and opens them again.
* `Shell.line` quotes the word after the option of the filter graph in any case.
-/

namespace FilterGraph.Shell

/-- The characters that mean nothing to a shell. -/
def isSafe (c : Char) : Bool := c.isAlphanum || "_@%+=:,./-".toList.contains c

/-- One character between single quotes. -/
def quotedChar (c : Char) : List Char :=
  if c = '\'' then ['\'', '"', '\'', '"', '\''] else [c]

/-- A word between single quotes. -/
def enclose (w : List Char) : List Char := '\'' :: w.flatMap quotedChar ++ ['\'']

/-- Whether a word needs no quotes. -/
def isPlain (w : List Char) : Bool := ! w.isEmpty && w.all isSafe

/-- A word as it is displayed; `force` quotes it in any case. -/
def word (force : Bool) (w : String) : String :=
  if isPlain w.toList && ! force then w else .ofList (enclose w.toList)

/-- The words of a vector as they are displayed, after the word `previous`. -/
def wordsAfter (previous : String) : List String → List String
  | [] => []
  | w :: r => word (previous = Command.filterOption) w :: wordsAfter w r

/-- A vector of words as one line. -/
def line : List String → String
  | [] => ""
  | w :: r => " ".intercalate (word false w :: wordsAfter w r)

end FilterGraph.Shell
