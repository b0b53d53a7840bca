import FilterGraph.Schema.Check
import FilterGraph.Graph.Kind
import FilterGraph.Text.Cut

/-!
# Addresses of streams in a document

An address names an input or a filter by its id, an output of it by its label, and possibly a
component of the stream. Its short form is `id`, `id.label`, `id:component` or
`id.label:component`.

* `StreamAddress.parse?` reads the short form: the first colon ends the target, the first dot in the
  target ends the id;
* `StreamAddress.text` writes it;
* `StreamAddress.check` accepts the short form and the record `{node, label, selector}`.
-/

namespace FilterGraph

/-- The address of one output of an input or filter. -/
structure StreamAddress where
  node : String
  label : Label
  selector : Option Selector
  deriving DecidableEq, Repr, Inhabited

namespace StreamAddress

open Schema

/-- The id, the label and the text of the component in a short form. -/
def parts (s : List Char) : List Char × List Char × Option (List Char) :=
  let (target, selector) := Text.cut ':' s
  let (node, label) := Text.cut '.' target
  (node, label.getD [], selector)

/-- The members of the record that a short form stands for. -/
def expand (s : String) : List (String × Json) :=
  let (node, label, selector) := parts s.toList
  [("node", .string (.ofList node)), ("label", .string (.ofList label))] ++
    (match selector with
      | some t => [("selector", .string (.ofList t))]
      | none => [])

/-- A component by its letter, or none at all. -/
def checkSelector : Json → Checked (Option Selector)
  | .null => .ok none
  | .string s => match Selector.ofLetter? s with
    | some c => .ok (some c)
    | none => Check.fail .notSelector
  | _ => Check.fail .notSelector

/-- An address given as a record. -/
def checkMembers (ms : List (String × Json)) : Checked StreamAddress :=
  (Check.pair (Check.required "node" Check.nonEmptyString ms)
    (Check.pair (Check.optional "label" "" Check.string ms)
      (Check.pair (Check.optional "selector" none checkSelector ms)
        (Check.noExtras ["node", "label", "selector"] ms)))).map
    fun (node, label, selector, _) => ⟨node, label, selector⟩

/-- An address in either form. -/
def check : Json → Checked StreamAddress
  | .string s => checkMembers (expand s)
  | v => Check.record "StreamRef" checkMembers v

/-- The address that a short form stands for. -/
def parse? (s : String) : Option StreamAddress := (check (.string s)).toOption

/-- The short form of an address. -/
def text (r : StreamAddress) : String :=
  r.node ++ (if r.label.isEmpty then "" else "." ++ r.label) ++
    (match r.selector with
      | some c => ":" ++ c.letter
      | none => "")

end StreamAddress

end FilterGraph
