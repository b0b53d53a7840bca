import FilterGraph.Text.Printable

/-!
# Quoted texts

`quoted` writes a text between quotes, as error messages and value listings show it:

* the quote is `'`, unless the text holds a `'` and no `"`, then it is `"`;
* the quote in use and the backslash are escaped, `\n`, `\r` and `\t` have their own escapes;
* any other unprintable character is written by code point with the shortest of `\xNN`, `\uNNNN`
  and `\UNNNNNNNN` that holds it.
-/

namespace FilterGraph.Text

/-- The lower-case digit of a value below sixteen. -/
def hexDigit (n : Nat) : Char := Char.ofNat (if n < 10 then 48 + n else 87 + n)

/-- The last `width` hexadecimal digits of `n`. -/
def hexDigits : Nat → Nat → List Char
  | 0, _ => []
  | width + 1, n => hexDigits width (n / 16) ++ [hexDigit (n % 16)]

/-- The quote put around a text. -/
def quoteFor (s : List Char) : Char :=
  if '\'' ∈ s ∧ '"' ∉ s then '"' else '\''

/-- One character of a text between the quotes `q`. -/
def quotedChar (q c : Char) : List Char :=
  if c = q ∨ c = '\\' then ['\\', c]
  else if c = '\n' then ['\\', 'n']
  else if c = '\r' then ['\\', 'r']
  else if c = '\t' then ['\\', 't']
  else if isPrintable c then [c]
  else if c.toNat < 0x100 then '\\' :: 'x' :: hexDigits 2 c.toNat
  else if c.toNat < 0x10000 then '\\' :: 'u' :: hexDigits 4 c.toNat
  else '\\' :: 'U' :: hexDigits 8 c.toNat

/-- A text between quotes. -/
def quotedChars (s : List Char) : List Char :=
  let q := quoteFor s
  q :: s.flatMap (quotedChar q) ++ [q]

/-- A text between quotes. -/
def quoted (s : String) : String := .ofList (quotedChars s.toList)

end FilterGraph.Text
