import FilterGraph.Graph.Basic
import FilterGraph.Entries

/-!
# Names of streams inside one command

A source is named by its position among the inputs; an output of a filter gets one of the names
`s0`, `s1`, … in the order in which the outputs are first assigned one. The table is keyed by
structural numbers and is made anew for every command.

* An output's name is its place in `StreamNames.outputs`, so no name is given twice;
* `StreamNames.name?` prefers the position of a source, whatever the label.
-/

namespace FilterGraph

/-- The names given so far. -/
structure StreamNames where
  /-- The position of each source. -/
  sources : List (Digest × Int)
  /-- The outputs that have a name, in the order in which it was assigned. -/
  outputs : List (Digest × Label)
  deriving DecidableEq, Repr, Inhabited

namespace StreamNames

/-- No names yet. -/
def empty : StreamNames := ⟨[], []⟩

/-- The name of the output that is assigned one after `n` others. -/
def outputName (n : Nat) : String := "s" ++ toString n

/-- Gives a source its position; an earlier position of the same source is forgotten. -/
def place (t : StreamNames) (source : Digest) (position : Int) : StreamNames :=
  { t with sources := Entries.set source position t.sources }

/-- Gives an output the next name, unless it has one. -/
def assign (t : StreamNames) (output : Digest × Label) : StreamNames :=
  if output ∈ t.outputs then t else { t with outputs := t.outputs ++ [output] }

/-- The assigned name of an output. -/
def assigned? (t : StreamNames) (output : Digest × Label) : Option String :=
  if output ∈ t.outputs then some (outputName (t.outputs.idxOf output)) else none

/-- The name of output `label` of the node with a number. -/
def name? (t : StreamNames) (node : Digest) (label : Label) : Option String :=
  match Entries.find? node t.sources with
  | some position => some (toString position)
  | none => t.assigned? (node, label)

/-- An output keeps its name when others are assigned theirs. -/
theorem assigned?_assign {t : StreamNames} {a b : Digest × Label} {n : String}
    (h : t.assigned? a = some n) : (t.assign b).assigned? a = some n := by
  unfold assigned? at h ⊢
  split at h
  · rename_i ha
    unfold assign
    split
    · simpa [ha] using h
    · simpa [ha, List.idxOf_append] using h
  · cases h

/-- Assigning gives a name. -/
theorem mem_outputs_assign (t : StreamNames) (a : Digest × Label) :
    a ∈ (t.assign a).outputs := by
  unfold assign
  split <;> simp_all

end StreamNames

/-- An output that was to be referred to without having a name. -/
structure Unnamed where
  node : NodeId
  label : Label
  deriving DecidableEq, Repr

/-- The text of the error. -/
def Unnamed.message (g : Graph) (u : Unnamed) : String :=
  "No stream name allocated for output '" ++ u.label ++ "' of '" ++ (g.node u.node).name ++ "'"

end FilterGraph
