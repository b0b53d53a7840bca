import FilterGraph.Schema.Issue
import FilterGraph.Json.Reader

/-!
# Checks of JSON values

A check reads a value of a domain type out of a JSON value or lists all issues that it finds. Checks
of parts are put together so that the issues of all parts are kept in the order of the parts.

* `Check.pair` runs two checks and keeps the issues of both;
* `Check.members` and `Check.items` check every member of an object and every item of an array;
* `Check.required`, `Check.optional` and `Check.noExtras` check the fields of a record.
-/

namespace FilterGraph.Schema

/-- The outcome of a check. -/
abbrev Checked (α : Type) := Except (List Issue) α

namespace Check

variable {α β : Type}

/-- A single issue at the value itself. -/
def fail (p : Problem) : Checked α := .error [⟨[], p⟩]

/-- Places the issues of a part below a step. -/
def under (s : Step) (c : Checked α) : Checked α :=
  c.mapError (·.map fun i => { i with place := s :: i.place })

/-- Two checks; the issues of the first come first. -/
def pair (a : Checked α) (b : Checked β) : Checked (α × β) :=
  match a, b with
  | .ok x, .ok y => .ok (x, y)
  | .error e, .ok _ => .error e
  | .ok _, .error f => .error f
  | .error e, .error f => .error (e ++ f)

/-! ## 1. Scalars -/

/-- Any string. -/
def string : Json → Checked String
  | .string s => .ok s
  | _ => fail .notString

/-- A string with at least one character. -/
def nonEmptyString : Json → Checked String
  | .string s => if s.isEmpty then fail .emptyString else .ok s
  | _ => fail .notString

/-- The words that stand for truth values, in lower case. -/
def trueWords : List String := ["1", "on", "t", "true", "y", "yes"]

/-- The words that stand for falsehood, in lower case. -/
def falseWords : List String := ["0", "off", "f", "false", "n", "no"]

/-- The least integer of 64 bits. -/
def leastInteger : Int := -0x8000000000000000

/-- The greatest integer of 64 bits. -/
def greatestInteger : Int := 0x7fffffffffffffff

/-- The truth value that an integer of 64 bits stands for: 0 and 1 do. -/
def truth (i : Int) : Checked Bool :=
  if i = 0 then .ok false else if i = 1 then .ok true else fail .unreadableBoolean

/-- A truth value: one itself, a number equal to 0 or 1, or one of the words in any case. Numbers
that are no integers of 64 bits are not read at all; of the floating-point numbers the least such
integer is not read either. -/
def bool : Json → Checked Bool
  | .bool b => .ok b
  | .int i => if leastInteger ≤ i ∧ i ≤ greatestInteger then truth i else fail .notBoolean
  | .float x => match x.integer? with
    | some i => if leastInteger < i ∧ i ≤ greatestInteger then truth i else fail .notBoolean
    | none => fail .notBoolean
  | .string s =>
    if trueWords.contains s.toLower then .ok true
    else if falseWords.contains s.toLower then .ok false
    else fail .unreadableBoolean
  | _ => fail .notBoolean

/-! ## 2. Containers -/

/-- Every pair checked, the issues placed below the keys. -/
def members (check : Json → Checked α) : List (String × Json) → Checked (List (String × α))
  | [] => .ok []
  | (k, v) :: r =>
    (pair (under (.key k) (check v)) (members check r)).map fun p => (k, p.1) :: p.2

/-- Every item from index `n` on checked, the issues placed below the indices. -/
def itemsFrom (check : Json → Checked α) : Nat → List Json → Checked (List α)
  | _, [] => .ok []
  | n, v :: r =>
    (pair (under (.index n) (check v)) (itemsFrom check (n + 1) r)).map fun p => p.1 :: p.2

/-- Every item checked. -/
def items (check : Json → Checked α) (vs : List Json) : Checked (List α) := itemsFrom check 0 vs

/-- An object whose members all have one shape. Every member is checked, and of those with one name
the last stands at the place of the first. -/
def dictionary (check : Json → Checked α) : Json → Checked (List (String × α))
  | .object ms => (members check ms).map Entries.ofPairs
  | _ => fail .notDictionary

/-- The same with at least one member. -/
def nonEmptyDictionary (check : Json → Checked α) : Json → Checked (List (String × α))
  | .object [] => fail .emptyDictionary
  | v => dictionary check v

/-- An array whose items all have one shape. -/
def list (check : Json → Checked α) : Json → Checked (List α)
  | .array vs => items check vs
  | _ => fail .notList

/-- The same with at least one item. -/
def nonEmptyList (check : Json → Checked α) : Json → Checked (List α)
  | .array [] => fail .emptyList
  | v => list check v

/-! ## 3. Records -/

/-- A field that has to be there. -/
def required (name : String) (check : Json → Checked α) (ms : List (String × Json)) : Checked α :=
  match Entries.find? name ms with
  | some v => under (.key name) (check v)
  | none => under (.key name) (fail .missing)

/-- A field that has a value when it is not there. -/
def optional (name : String) (dflt : α) (check : Json → Checked α) (ms : List (String × Json)) :
    Checked α :=
  match Entries.find? name ms with
  | some v => under (.key name) (check v)
  | none => .ok dflt

/-- No fields but the named ones. -/
def noExtras (names : List String) (ms : List (String × Json)) : Checked Unit :=
  match ms.filter fun m => ! names.contains m.1 with
  | [] => .ok ()
  | extras => .error (extras.map fun m => ⟨[.key m.1], .extra⟩)

/-- The members of an object that is to be a record of a name. Of the members with one name only the
last is checked, at the place of the first. -/
def record (name : String) (check : List (String × Json) → Checked α) : Json → Checked α
  | .object ms => check (Entries.ofPairs ms)
  | _ => fail (.notRecord name)

/-! ## 4. Texts -/

/-- How deep the values of a text may be nested, and how long its integers may be. -/
def textLimits : Json.Limits := ⟨200, 4300⟩

/-- The check of the value that a JSON text holds. -/
def ofText (check : Json → Checked α) (s : String) : Checked α :=
  match Json.read? textLimits s with
  | some v => check v
  | none => fail .notJson

end Check

end FilterGraph.Schema
