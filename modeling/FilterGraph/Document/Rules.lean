import FilterGraph.Counting
import FilterGraph.Document.Shape

/-!
# The rules of a pipeline document

Beyond its shape a document has to keep three rules, tried in this order:

* `checkIds`: ids are not empty, contain neither separator, and no id names both an input and a
  filter;
* `checkAddresses`: every address names an input or a filter, and an input has no labelled outputs;
* `order`: the references among filters form no cycle. The walk visits the filters in the order of
  the document, each after the filters it refers to, and gives the order in which it leaves them.

The walk ends because the filters on its path are distinct filters of the document.
-/

namespace FilterGraph

/-- Why a document breaks a rule. -/
inductive RuleError where
  | invalidId (id : String)
  | sharedIds (ids : List String)
  | labelledInput (id : String) (label : Label)
  | unknownAddress (id : String)
  /-- The ids along a cycle, the first repeated at the end. -/
  | cycle (loop : List String)
  deriving DecidableEq, Repr

/-- The text of the error. -/
def RuleError.message : RuleError → String
  | .invalidId id => "Invalid id '" ++ id ++ "': ids must be non-empty and contain no '.' or ':'"
  | .sharedIds ids => "Ids used for both an input and a filter: " ++ ", ".intercalate ids
  | .labelledInput id label => "Input '" ++ id ++ "' has no output labelled '" ++ label ++ "'"
  | .unknownAddress id => "Unknown stream reference: '" ++ id ++ "'"
  | .cycle loop => "Filter references form a cycle: " ++ " -> ".intercalate loop

/-- Whether a text can be an id. -/
def wellFormedId (id : String) : Bool :=
  ! id.isEmpty && ! id.toList.contains '.' && ! id.toList.contains ':'

/-- The filters of a document by id. -/
abbrev Filters := List (String × FilterEntry)

/-! ## 1. Cycles among filters -/

namespace Filters

/-- How many filters are not on a path. -/
def offPath (fs : Filters) (path : List String) : Nat := fs.countP fun f => decide (f.1 ∉ path)

theorem offPath_append_lt {fs : Filters} {path : List String} {id : String} {f : FilterEntry}
    (hf : Entries.find? id fs = some f) (hp : id ∉ path) :
    offPath fs (path ++ [id]) < offPath fs path :=
  countP_lt_countP (fun g hg => by simp_all) (Entries.mem_of_find? hf) (by simp) (by simpa using hp)

/-- The ids on a path from `id` on, and `id` again. -/
def loop (path : List String) (id : String) : List String := path.dropWhile (· ≠ id) ++ [id]

mutual

/-- Visits a filter from a path of filters; `done` are the filters left so far. -/
def visit (fs : Filters) (path done : List String) (id : String) :
    Except RuleError (List String) :=
  if _hp : id ∈ path then .error (.cycle (loop path id))
  else if id ∈ done then .ok done
  else match _hf : Entries.find? id fs with
    | none => .ok done
    | some f => (visitAll fs (path ++ [id]) done f.inputs).map (· ++ [id])
termination_by (fs.offPath path, 0)
decreasing_by exact Prod.Lex.left _ _ (offPath_append_lt _hf _hp)

/-- Visits what the addresses name, one after the other. -/
def visitAll (fs : Filters) (path done : List String) : List StreamAddress →
    Except RuleError (List String)
  | [] => .ok done
  | r :: rs => match visit fs path done r.node with
    | .error e => .error e
    | .ok done => visitAll fs path done rs
termination_by rs => (fs.offPath path, rs.length + 1)

end

/-- The filters of a document, each after the filters it refers to. -/
def order (fs : Filters) : Except RuleError (List String) :=
  (fs.map (·.1)).foldlM (fun done id => visit fs [] done id) []

end Filters

/-! ## 2. The rules -/

namespace Document

/-- The ids of a document are well formed and distinct. -/
def checkIds (d : Document) : Except RuleError Unit :=
  match (d.inputs.map (·.1) ++ d.filters.map (·.1)).find? (! wellFormedId ·) with
  | some id => .error (.invalidId id)
  | none =>
    match (d.inputs.map (·.1)).filter fun id => d.filters.any (·.1 == id) with
    | [] => .ok ()
    | shared => .error (.sharedIds (shared.mergeSort fun a b => decide (a ≤ b)))

/-- All addresses of a document, those of the filters first. -/
def addresses (d : Document) : List StreamAddress :=
  d.filters.flatMap (·.2.inputs) ++ d.outputs.flatMap (·.inputs)

/-- What is wrong with an address. -/
def addressError? (d : Document) (r : StreamAddress) : Option RuleError :=
  if d.inputs.any (·.1 == r.node) then
    if r.label.isEmpty then none else some (.labelledInput r.node r.label)
  else if d.filters.any (·.1 == r.node) then none
  else some (.unknownAddress r.node)

/-- Every address names something. -/
def checkAddresses (d : Document) : Except RuleError Unit :=
  match d.addresses.findSome? d.addressError? with
  | some e => .error e
  | none => .ok ()

/-- The filters of a document that keeps all rules, each after the filters it refers to. -/
def order (d : Document) : Except RuleError (List String) := do
  d.checkIds
  d.checkAddresses
  Filters.order d.filters

end Document

/-- A document that keeps the rules, with its filters in dependency order. -/
structure Pipeline where
  document : Document
  order : List String
  document_order : document.order = .ok order

namespace Pipeline

open Schema

/-- A document as data or as a JSON value read from a text. -/
def ofJson (v : Json) : Checked Pipeline :=
  match Document.check v with
  | .error issues => .error issues
  | .ok document => match h : document.order with
    | .error e => Check.fail (.invalid e.message)
    | .ok order => .ok ⟨document, order, h⟩

end Pipeline

end FilterGraph
