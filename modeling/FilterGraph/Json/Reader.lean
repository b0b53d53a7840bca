import FilterGraph.Json.Basic

/-!
# Reading JSON texts

`Json.read? limits s` is the value of the text `s`, if it is a JSON text within limits: how deep its
arrays and objects are nested, those that hold nothing not counted, and how many digits the
integer part of a number has.

* Beside the grammar of the format the words `NaN`, `Infinity` and `-Infinity` are numbers.
* A number without fraction and exponent is an integer of any size, any other is rounded to a
  64-bit floating-point number.
* An object keeps all its members, also several with one name.
* An escaped surrogate has to be followed by its partner; a control character has to be escaped.

Every step of the reader takes a character or opens a value, so twice the length of the text bounds
the number of steps.
-/

namespace FilterGraph.Json

/-- The limits of a text. -/
structure Limits where
  /-- How deep values are nested at most. -/
  depth : Nat
  /-- How many digits the integer part of a number has at most. -/
  digits : Nat
  deriving DecidableEq, Repr

/-- The limits without which nothing in a text of a length is refused. -/
def Limits.ofLength (n : Nat) : Limits := ⟨n, n⟩

/-! ## 1. Tokens -/

/-- The text after the blanks that may stand between tokens. -/
def skipBlanks : List Char → List Char
  | [] => []
  | c :: r => if c = ' ' ∨ c = '\t' ∨ c = '\n' ∨ c = '\r' then skipBlanks r else c :: r

/-- The value of a hexadecimal digit. -/
def hexValue? (c : Char) : Option Nat :=
  if '0' ≤ c ∧ c ≤ '9' then some (c.toNat - 48)
  else if 'a' ≤ c ∧ c ≤ 'f' then some (c.toNat - 87)
  else if 'A' ≤ c ∧ c ≤ 'F' then some (c.toNat - 55)
  else none

/-- Four hexadecimal digits. -/
def readHex4? : List Char → Option (Nat × List Char)
  | a :: b :: c :: d :: r => do
    let a ← hexValue? a
    let b ← hexValue? b
    let c ← hexValue? c
    let d ← hexValue? d
    some (((a * 16 + b) * 16 + c) * 16 + d, r)
  | _ => none

/-- The character of one or two escaped UTF-16 units, after the first `\u`. -/
def readUnits? (s : List Char) : Option (Char × List Char) := do
  let (n, r) ← readHex4? s
  if 0xd800 ≤ n ∧ n < 0xdc00 then
    match r with
    | '\\' :: 'u' :: r =>
      let (m, r) ← readHex4? r
      if 0xdc00 ≤ m ∧ m < 0xe000 then
        some (Char.ofNat (0x10000 + (n - 0xd800) * 0x400 + (m - 0xdc00)), r)
      else none
    | _ => none
  else if 0xdc00 ≤ n ∧ n < 0xe000 then none
  else some (Char.ofNat n, r)

/-- The rest of a string whose characters so far are `acc` in reverse. -/
def readString? : Nat → List Char → List Char → Option (String × List Char)
  | 0, _, _ => none
  | fuel + 1, acc, s =>
    match s with
    | [] => none
    | '"' :: r => some (.ofList acc.reverse, r)
    | '\\' :: 'u' :: r =>
      match readUnits? r with
      | none => none
      | some (c, r) => readString? fuel (c :: acc) r
    | '\\' :: 'n' :: r => readString? fuel ('\n' :: acc) r
    | '\\' :: 'r' :: r => readString? fuel ('\r' :: acc) r
    | '\\' :: 't' :: r => readString? fuel ('\t' :: acc) r
    | '\\' :: 'b' :: r => readString? fuel ('\x08' :: acc) r
    | '\\' :: 'f' :: r => readString? fuel ('\x0c' :: acc) r
    | '\\' :: c :: r =>
      if c = '"' ∨ c = '\\' ∨ c = '/' then readString? fuel (c :: acc) r else none
    | c :: r => if c = '\\' ∨ c.toNat < 0x20 then none else readString? fuel (c :: acc) r

/-- Whether a character is one of the ten ASCII digits. -/
def isDigit (c : Char) : Bool := '0' ≤ c && c ≤ '9'

/-- The number that ASCII digits write. -/
def ofDigits (ds : List Char) : Nat := ds.foldl (fun n c => 10 * n + (c.toNat - 48)) 0

/-- The exponent part of a number: its value, or `none` when there is none. -/
def readExponent (s : List Char) : Option Int × List Char :=
  match s with
  | c :: r =>
    if c = 'e' ∨ c = 'E' then
      let (negative, digits) : Bool × List Char := match r with
        | '-' :: t => (true, t)
        | '+' :: t => (false, t)
        | t => (false, t)
      let ds := digits.takeWhile isDigit
      if ds.isEmpty then (none, s)
      else (some (if negative then - (ofDigits ds : Int) else ofDigits ds),
        digits.dropWhile isDigit)
    else (none, s)
  | [] => (none, s)

/-- The fraction part of a number: its digits, or none when there is no such part. -/
def readFraction (s : List Char) : List Char × List Char :=
  match s with
  | '.' :: r =>
    let ds := r.takeWhile isDigit
    if ds.isEmpty then ([], s) else (ds, r.dropWhile isDigit)
  | _ => ([], s)

/-- A number without its sign, whose integer part has at most `limit` digits; a leading zero stands
alone. -/
def readNumber? (negative : Bool) (limit : Nat) (s : List Char) : Option (Json × List Char) :=
  let whole := match s with
    | '0' :: _ => ['0']
    | _ => s.takeWhile isDigit
  if whole.isEmpty ∨ limit < whole.length then none
  else
    let (fraction, r) := readFraction (s.drop whole.length)
    let (exponent, r) := readExponent r
    if fraction.isEmpty ∧ exponent.isNone then
      let n : Int := ofDigits whole
      some (.int (if negative then -n else n), r)
    else
      let x := Binary64.ofDecimal negative (ofDigits (whole ++ fraction))
        (exponent.getD 0 - fraction.length)
      some (.float x, r)

/-- Drops `word` from the front of a text. -/
def dropWord? (word : String) (s : List Char) : Option (List Char) :=
  if word.toList.isPrefixOf s then some (s.drop word.length) else none

/-! ## 2. Values -/

mutual

/-- A value, after any blanks. -/
def readValue? : Nat → Limits → List Char → Option (Json × List Char)
  | 0, _, _ => none
  | fuel + 1, limits, s =>
    match skipBlanks s with
    | '"' :: r => (readString? (r.length + 1) [] r).map fun (t, r) => (.string t, r)
    | '[' :: r =>
      match skipBlanks r with
      | ']' :: r => some (.array [], r)
      | r =>
        if limits.depth = 0 then none
        else readItems? fuel { limits with depth := limits.depth - 1 } [] r
    | '{' :: r =>
      match skipBlanks r with
      | '}' :: r => some (.object [], r)
      | r =>
        if limits.depth = 0 then none
        else readMembers? fuel { limits with depth := limits.depth - 1 } [] r
    | 't' :: r => (dropWord? "rue" r).map fun r => (.bool true, r)
    | 'f' :: r => (dropWord? "alse" r).map fun r => (.bool false, r)
    | 'n' :: r => (dropWord? "ull" r).map fun r => (.null, r)
    | 'N' :: r => (dropWord? "aN" r).map fun r => (.float .nan, r)
    | 'I' :: r => (dropWord? "nfinity" r).map fun r => (.float (.infinity false), r)
    | '-' :: 'I' :: r => (dropWord? "nfinity" r).map fun r => (.float (.infinity true), r)
    | '-' :: r => readNumber? true limits.digits r
    | r => readNumber? false limits.digits r

/-- The items of an array from one item on; those before it are `acc` in reverse. -/
def readItems? : Nat → Limits → List Json → List Char → Option (Json × List Char)
  | 0, _, _, _ => none
  | fuel + 1, limits, acc, s =>
    match readValue? fuel limits s with
    | none => none
    | some (v, r) =>
      match skipBlanks r with
      | ',' :: r => readItems? fuel limits (v :: acc) r
      | ']' :: r => some (.array (v :: acc).reverse, r)
      | _ => none

/-- The members of an object from one member on; those before it are `acc` in reverse. -/
def readMembers? : Nat → Limits → List (String × Json) → List Char → Option (Json × List Char)
  | 0, _, _, _ => none
  | fuel + 1, limits, acc, s =>
    match skipBlanks s with
    | '"' :: r =>
      match readString? (r.length + 1) [] r with
      | none => none
      | some (k, r) =>
        match skipBlanks r with
        | ':' :: r =>
          match readValue? fuel limits r with
          | none => none
          | some (v, r) =>
            match skipBlanks r with
            | ',' :: r => readMembers? fuel limits ((k, v) :: acc) r
            | '}' :: r => some (.object ((k, v) :: acc).reverse, r)
            | _ => none
        | _ => none
    | _ => none

end

/-- The value of a JSON text. -/
def read? (limits : Limits) (s : String) : Option Json :=
  match readValue? (2 * s.length + 2) limits s.toList with
  | none => none
  | some (v, r) => if (skipBlanks r).isEmpty then some v else none

end FilterGraph.Json
