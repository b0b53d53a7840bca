/-!
# Blanks and line ends

Two character classes and the cuts that use them:

* `isBlank` is the class that `strip` removes at both ends of a text: the characters with the
  property White_Space and the four information separators U+001C to U+001F;
* `endsLine` is the class of the characters that end a line, and `firstLine?` is the text before
  the first of them;
* `unifyNewlines` is the reading rule for text streams: CR LF and a lone CR count as LF.
-/

namespace FilterGraph.Text

/-! ## 1. Blanks -/

/-- The blank characters. -/
def isBlank (c : Char) : Bool :=
  let n := c.toNat
  (9 ≤ n && n ≤ 13) || (0x1c ≤ n && n ≤ 0x20) || n == 0x85 || n == 0xa0 || n == 0x1680 ||
    (0x2000 ≤ n && n ≤ 0x200a) || n == 0x2028 || n == 0x2029 || n == 0x202f || n == 0x205f ||
    n == 0x3000

/-- The characters after the leading blanks. -/
def stripLeft (s : List Char) : List Char := s.dropWhile isBlank

/-- The characters between the leading and the trailing blanks. -/
def stripChars (s : List Char) : List Char := (stripLeft (stripLeft s).reverse).reverse

/-- A text without its leading and trailing blanks. -/
def strip (s : String) : String := .ofList (stripChars s.toList)

/-! ## 2. Lines -/

/-- The characters that end a line. -/
def endsLine (c : Char) : Bool :=
  let n := c.toNat
  (10 ≤ n && n ≤ 13) || (0x1c ≤ n && n ≤ 0x1e) || n == 0x85 || n == 0x2028 || n == 0x2029

/-- The first line of a text, without its end; the empty text has no line. -/
def firstLine? (s : String) : Option String :=
  if s.isEmpty then none else some (.ofList (s.toList.takeWhile (! endsLine ·)))

/-- Every CR LF and every lone CR becomes LF. -/
def unifyNewlineChars : List Char → List Char
  | '\r' :: '\n' :: r => '\n' :: unifyNewlineChars r
  | '\r' :: r => '\n' :: unifyNewlineChars r
  | c :: r => c :: unifyNewlineChars r
  | [] => []

/-- A text without CR is kept. -/
theorem unifyNewlineChars_eq_of_not_mem {s : List Char} (h : '\r' ∉ s) :
    unifyNewlineChars s = s := by
  fun_induction unifyNewlineChars s with
  | case1 => simp at h
  | case2 => simp at h
  | case3 c r _ _ ih => rw [ih fun hr => h (List.mem_cons_of_mem c hr)]
  | case4 => rfl

/-- A text as a reader with universal newlines sees it. -/
def unifyNewlines (s : String) : String := .ofList (unifyNewlineChars s.toList)

theorem unifyNewlines_eq_of_not_mem {s : String} (h : '\r' ∉ s.toList) : unifyNewlines s = s := by
  rw [unifyNewlines, unifyNewlineChars_eq_of_not_mem h, String.ofList_toList]

end FilterGraph.Text
