import FilterGraph.Text.Blank
import FilterGraph.Text.Digits

/-!
# Numerals

`isNumeral` tells which words write a number. A number is a decimal number, an imaginary number, or
the sum of one of each: `-3`, `.5e-1`, `1_000`, `-inf`, `2j`, `-1+2j`. Digits of every script
count, single underscores may part digits, letters count in both cases, and blanks may stand at the
ends.

* `plain` maps the characters to ASCII, `joinDigits?` takes the underscores out;
* `afterDecimal?` and `afterUnsigned?` give what follows a number at the front of a text;
* `isComplex` puts numbers together.
-/

namespace FilterGraph.Text

/-! ## 1. Characters -/

/-- The ASCII digit of the same value, a space for a blank, and ASCII characters as they are. -/
def plain (c : Char) : Char :=
  if c.toNat < 0x80 then c
  else if isBlank c then ' '
  else match digitValue? c with
    | some d => Char.ofNat (0x30 + d)
    | none => c

/-- The blanks that are left after `plain` and may stand at the ends of a numeral: the ASCII
blanks without the information separators. -/
def isMargin (c : Char) : Bool := c == ' ' || (9 ≤ c.toNat && c.toNat ≤ 13)

/-- The text without its underscores, each of which has to part two digits. The flag tells whether
the character before the text is a digit. -/
def joinDigits? (afterDigit : Bool) : List Char → Option (List Char)
  | [] => some []
  | '_' :: c :: r =>
    if afterDigit && c.isDigit then (joinDigits? true r).map (c :: ·) else none
  | c :: r => if c = '_' then none else (joinDigits? c.isDigit r).map (c :: ·)

/-! ## 2. Numbers at the front of a text -/

/-- The text after a sign, if there is one. -/
def afterSign : List Char → List Char
  | '-' :: r => r
  | '+' :: r => r
  | r => r

/-- The text after an exponent, if there is one. -/
def afterExponent (s : List Char) : List Char :=
  match s with
  | [] => []
  | c :: r =>
    let digits := afterSign r
    if c.toLower = 'e' ∧ (digits.head?.any Char.isDigit) then digits.dropWhile Char.isDigit else s

/-- The text after digits, at least one, with at most one point before, between or after them. -/
def afterDigits? (s : List Char) : Option (List Char) :=
  match s.dropWhile Char.isDigit with
  | '.' :: r =>
    if s.head?.any Char.isDigit || r.head?.any Char.isDigit then some (r.dropWhile Char.isDigit)
    else none
  | r => if s.head?.any Char.isDigit then some r else none

/-- The names of the numbers that have no digits; a longer name comes before its beginning. -/
def namedNumbers : List String := ["infinity", "inf", "nan"]

/-- The text after a name at its front, in lower case or not. -/
def afterName? (name : String) (s : List Char) : Option (List Char) :=
  if (s.take name.length).map Char.toLower = name.toList then some (s.drop name.length) else none

/-- The text after a decimal number without sign. -/
def afterUnsigned? (s : List Char) : Option (List Char) :=
  match afterDigits? s with
  | some r => some (afterExponent r)
  | none => namedNumbers.findSome? fun name => afterName? name s

/-- The text after a decimal number. -/
def afterDecimal? (s : List Char) : Option (List Char) := afterUnsigned? (afterSign s)

/-! ## 3. Numerals -/

/-- Whether a text is the imaginary unit. -/
def isUnit (s : List Char) : Bool := s == ['j'] || s == ['J']

/-- Whether a text in ASCII writes a number: a decimal number, or an imaginary part, whose
decimal number may be left out, alone or signed after a decimal number. -/
def isComplex (s : List Char) : Bool :=
  match afterDecimal? s with
  | none => isUnit (afterSign s)
  | some [] => true
  | some (c :: r) =>
    if c = '+' ∨ c = '-' then isUnit ((afterUnsigned? r).getD r) else isUnit (c :: r)

/-- Whether a word writes a number. -/
def isNumeral (s : List Char) : Bool :=
  let trimmed := ((s.map plain).dropWhile isMargin).reverse.dropWhile isMargin |>.reverse
  (joinDigits? false trimmed).any isComplex

end FilterGraph.Text
