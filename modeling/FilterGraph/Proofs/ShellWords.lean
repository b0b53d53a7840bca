import FilterGraph.Shell.Quote
import Mathlib.Data.List.Forall2

/-!
# Reading a displayed command back

A displayed command is read by the rules by which a POSIX shell parts a line into words: blanks part
words, a backslash takes away the meaning of the next character, single quotes that of all
characters up to the next single quote, and double quotes that of all but the backslash before a
backslash or a double quote. Quotes may open and close within a word, and an empty pair of quotes is
a word. Nothing is expanded.

* `Shell.Reader`, `Shell.split`: the reader, one character after the other, and the words of a line;
* `foldl_enclose`, `foldl_word`: what the reader makes of a word that is displayed;
* `Shell.Quoted`: a text of which nothing stands outside quotes; `quoted_enclose`;
* **`displayed_command_reads_back`**: the words of a displayed vector are the vector.
-/

namespace FilterGraph.Shell

/-! ## 1. The words of a line -/

/-- Where a reader stands: between words, in a word, in either kind of quotes, or behind a
backslash, which stands in double quotes or not. -/
inductive Place where
  | between
  | bare
  | single
  | double
  | escape (inDouble : Bool)
  deriving DecidableEq, Repr

/-- A reader of a line: its place, the characters of the word that is open, and the words before. -/
structure Reader where
  place : Place
  word : List Char
  words : List (List Char)
  deriving DecidableEq, Repr

/-- The characters that part words. -/
def isBlank (c : Char) : Bool := c = ' ' || c = '\t' || c = '\r' || c = '\n'

namespace Reader

/-- A reader before the first character. -/
def start : Reader := ⟨.between, [], []⟩

/-- Takes a character into the word and stands at a place. -/
def take (r : Reader) (place : Place) (c : Char) : Reader := { r with place, word := r.word ++ [c] }

/-- Reads a character outside of quotes that is no blank. -/
def enter (r : Reader) (c : Char) : Reader :=
  if c = '\\' then { r with place := .escape false }
  else if c = '\'' then { r with place := .single }
  else if c = '"' then { r with place := .double }
  else r.take .bare c

/-- Reads a character. -/
def step (r : Reader) (c : Char) : Reader :=
  match r.place with
  | .between => if isBlank c then r else r.enter c
  | .bare => if isBlank c then ⟨.between, [], r.words ++ [r.word]⟩ else r.enter c
  | .single => if c = '\'' then { r with place := .bare } else r.take .single c
  | .double =>
    if c = '"' then { r with place := .bare }
    else if c = '\\' then { r with place := .escape true }
    else r.take .double c
  | .escape false => r.take .bare c
  | .escape true =>
    if c = '"' ∨ c = '\\' then r.take .double c else (r.take .double '\\').take .double c

/-- The words at the end of a line, unless a quotation or a backslash is left open. -/
def finish (r : Reader) : Option (List (List Char)) :=
  match r.place with
  | .between => some r.words
  | .bare => some (r.words ++ [r.word])
  | _ => none

end Reader

/-- The words of a line. -/
def split (line : String) : Option (List String) :=
  (line.toList.foldl Reader.step .start).finish.map (·.map String.ofList)

/-! ## 2. Reading a word -/

section Words

variable (held : List Char) (words : List (List Char))

theorem isSafe_not_special {c : Char} (h : isSafe c = true) :
    isBlank c = false ∧ c ≠ '\\' ∧ c ≠ '\'' ∧ c ≠ '"' := by
  refine ⟨?_, ?_, ?_, ?_⟩
  · rw [Bool.eq_false_iff]
    intro hb
    simp only [isBlank, Bool.or_eq_true, decide_eq_true_eq] at hb
    rcases hb with ((rfl | rfl) | rfl) | rfl <;> exact absurd h (by decide)
  all_goals
    rintro rfl
    exact absurd h (by decide)

/-- A safe character is taken as it is. -/
theorem step_safe {c : Char} (h : isSafe c = true) :
    Reader.step ⟨.bare, held, words⟩ c = ⟨.bare, held ++ [c], words⟩ := by
  obtain ⟨blank, escape, single, double⟩ := isSafe_not_special h
  simp [Reader.step, Reader.enter, Reader.take, blank, escape, single, double]

/-- The first character of a word is read as if the word were open. -/
theorem step_between {c : Char} (h : isBlank c = false) :
    Reader.step ⟨.between, [], words⟩ c = Reader.step ⟨.bare, [], words⟩ c := by
  simp only [Reader.step, h]
  rfl

theorem foldl_safe {w : List Char} (h : w.all isSafe = true) :
    w.foldl Reader.step ⟨.bare, held, words⟩ = ⟨.bare, held ++ w, words⟩ := by
  induction w generalizing held with
  | nil => simp
  | cons c w ih =>
    rw [List.all_cons, Bool.and_eq_true] at h
    rw [List.foldl_cons, step_safe held words h.1, ih _ h.2, List.append_assoc]
    rfl

/-- A plain word is read as it is. -/
theorem foldl_plain {w : List Char} (h : isPlain w = true) :
    w.foldl Reader.step ⟨.between, [], words⟩ = ⟨.bare, w, words⟩ := by
  rw [isPlain, Bool.and_eq_true] at h
  match w, h with
  | c :: w, ⟨_, safe⟩ =>
    have first := List.all_cons.symm.trans safe
    rw [Bool.and_eq_true] at first
    rw [List.foldl_cons, step_between words (isSafe_not_special first.1).1, ← List.foldl_cons,
      foldl_safe [] words safe, List.nil_append]

/-- **A character between single quotes is read as itself**, also a single quote, for which the
quotes are closed and opened again. -/
theorem foldl_quotedChar (c : Char) :
    (quotedChar c).foldl Reader.step ⟨.single, held, words⟩ = ⟨.single, held ++ [c], words⟩ := by
  by_cases h : c = '\''
  · subst h
    simp [quotedChar, Reader.step, Reader.enter, Reader.take, isBlank]
  · simp [quotedChar, Reader.step, Reader.take, h]

theorem foldl_quotedChars (w : List Char) :
    (w.flatMap quotedChar).foldl Reader.step ⟨.single, held, words⟩ =
      ⟨.single, held ++ w, words⟩ := by
  induction w generalizing held with
  | nil => simp
  | cons c w ih =>
    rw [List.flatMap_cons, List.foldl_append, foldl_quotedChar, ih, List.append_assoc]
    rfl

/-- **A quoted word is read as the word.** -/
theorem foldl_enclose (w : List Char) :
    (enclose w).foldl Reader.step ⟨.between, [], words⟩ = ⟨.bare, w, words⟩ := by
  have opened : Reader.step ⟨.between, [], words⟩ '\'' = ⟨.single, [], words⟩ := rfl
  rw [enclose, List.cons_append, List.foldl_cons, List.foldl_append, opened, foldl_quotedChars]
  rfl

/-- A word is read back from the way it is displayed. -/
theorem foldl_word (force : Bool) (w : String) :
    (word force w).toList.foldl Reader.step ⟨.between, [], words⟩ = ⟨.bare, w.toList, words⟩ := by
  unfold word
  split
  · rename_i h
    rw [Bool.and_eq_true] at h
    exact foldl_plain words h.1
  · rw [String.toList_ofList]
    exact foldl_enclose words w.toList

end Words

/-! ## 3. Reading a line -/

/-- The words of a vector as they are displayed. -/
def shown : List String → List String
  | [] => []
  | w :: r => word false w :: wordsAfter w r

theorem line_eq (args : List String) : line args = " ".intercalate (shown args) := by
  cases args <;> rfl

/-- Every word of a vector is displayed, quoted in any case or not. -/
theorem forall₂_wordsAfter (previous : String) (r : List String) :
    List.Forall₂ (fun w t => ∃ force, t = word force w) r (wordsAfter previous r) := by
  induction r generalizing previous with
  | nil => exact .nil
  | cons w r ih => exact .cons ⟨_, rfl⟩ (ih w)

theorem forall₂_shown (args : List String) :
    List.Forall₂ (fun w t => ∃ force, t = word force w) args (shown args) := by
  cases args with
  | nil => exact .nil
  | cons w r => exact .cons ⟨false, rfl⟩ (forall₂_wordsAfter w r)

/-- **Displayed words with blanks between them are read one by one.** -/
theorem foldl_joined {args ts : List String} (words : List (List Char))
    (h : List.Forall₂ (fun w t => ∃ force, t = word force w) args ts) :
    (((" ".intercalate ts).toList.foldl Reader.step ⟨.between, [], words⟩).finish) =
      some (words ++ args.map String.toList) := by
  induction h generalizing words with
  | nil => simp [Reader.finish]
  | @cons w t args ts ht rest ih =>
    obtain ⟨force, rfl⟩ := ht
    cases rest with
    | nil =>
      rw [String.intercalate_singleton, foldl_word]
      rfl
    | @cons w' t' args ts ht' rest =>
      have blank : Reader.step ⟨.bare, w.toList, words⟩ ' ' = ⟨.between, [], words ++ [w.toList]⟩ :=
        rfl
      have apart : " ".toList = [' '] := rfl
      rw [String.intercalate_cons_cons, String.toList_append, String.toList_append,
        List.foldl_append, List.foldl_append, foldl_word, apart, List.foldl_cons, List.foldl_nil,
        blank, ih, List.append_assoc]
      rfl

theorem split_joined {args ts : List String}
    (h : List.Forall₂ (fun w t => ∃ force, t = word force w) args ts) :
    split (" ".intercalate ts) = some args := by
  unfold split Reader.start
  rw [foldl_joined [] h, List.nil_append, Option.map_some, List.map_map]
  simp [Function.comp_def]

/-! ## 4. Quoted words -/

/-- A row of quotations: nothing of the text stands outside quotes. -/
inductive Quoted : List Char → Prop where
  | single {s : List Char} (h : '\'' ∉ s) : Quoted ('\'' :: s ++ ['\''])
  | double {s : List Char} (h : '"' ∉ s) (plain : '\\' ∉ s) : Quoted ('"' :: s ++ ['"'])
  | append {s t : List Char} (hs : Quoted s) (ht : Quoted t) : Quoted (s ++ t)

/-- What is left of a quoted word, when the open quotation holds no single quote so far. -/
theorem quoted_rest {held : List Char} (h : '\'' ∉ held) (w : List Char) :
    Quoted ('\'' :: held ++ w.flatMap quotedChar ++ ['\'']) := by
  induction w generalizing held with
  | nil =>
    rw [List.flatMap_nil, List.append_nil]
    exact .single h
  | cons c w ih =>
    rw [List.flatMap_cons]
    by_cases hc : c = '\''
    · subst hc
      have quote : Quoted ('"' :: ['\''] ++ ['"']) := .double (by decide) (by decide)
      have rest : Quoted ('\'' :: [] ++ w.flatMap quotedChar ++ ['\'']) := ih List.not_mem_nil
      have parts := ((Quoted.single h).append quote).append rest
      simpa [quotedChar] using parts
    · have longer : '\'' ∉ held ++ [c] := by
        simp [h, Ne.symm hc]
      simpa [quotedChar, hc] using ih longer

/-- **A word between single quotes stands in quotes as a whole.** -/
theorem quoted_enclose (w : List Char) : Quoted (enclose w) := quoted_rest List.not_mem_nil w

theorem quoted_word (w : String) : Quoted (word true w).toList := by
  simp [word, quoted_enclose]

/-- What a word is displayed like depends on the word before it. -/
theorem getElem?_wordsAfter {previous p w : String} {r : List String} {i : Nat}
    (hp : (previous :: r)[i]? = some p) (hw : r[i]? = some w) :
    (wordsAfter previous r)[i]? = some (word (p = Command.filterOption) w) := by
  induction r generalizing previous i with
  | nil => simp at hw
  | cons x r ih =>
    cases i with
    | zero =>
      cases hp
      cases hw
      rfl
    | succ i => exact ih hp hw

/-- The word after the option of the filter graph is quoted. -/
theorem quoted_after_option {args : List String} {i : Nat} {t : String}
    (hp : args[i]? = some Command.filterOption) (ht : (shown args)[i + 1]? = some t) :
    Quoted t.toList := by
  cases args with
  | nil => simp at hp
  | cons w r =>
    obtain ⟨a, ha⟩ : ∃ a, r[i]? = some a := by
      have there := (List.getElem?_eq_some_iff.mp ht).1
      rw [← (forall₂_shown (w :: r)).length_eq, List.length_cons] at there
      exact ⟨_, List.getElem?_eq_getElem (Nat.lt_of_succ_lt_succ there)⟩
    have forced := getElem?_wordsAfter hp ha
    rw [shown, List.getElem?_cons_succ, forced, Option.some_inj] at ht
    rw [← ht]
    simp [quoted_word]

/-! ## 5. Displayed commands -/

/-- **A displayed command reads back**: the words of the line are the words of the vector, one by
one and whatever they hold; and the word after every option of the filter graph stands in quotes. -/
theorem displayed_command_reads_back (w : String) (r : List String) :
    split (line (w :: r)) = some (w :: r) ∧
    ∃ ts : List String, line (w :: r) = " ".intercalate ts ∧
      List.Forall₂ (fun a t => split t = some [a]) (w :: r) ts ∧
      ∀ (i : Nat) (t : String), (w :: r)[i]? = some Command.filterOption →
        ts[i + 1]? = some t → Quoted t.toList := by
  have rows := forall₂_shown (w :: r)
  refine ⟨?_, shown (w :: r), line_eq _, rows.imp ?_, fun i t => quoted_after_option⟩
  · rw [line_eq]
    exact split_joined rows
  · intro a t ht
    have alone := split_joined (.cons ht .nil)
    rwa [String.intercalate_singleton] at alone

example :
    line ["-filter_complex", "null", "it's"] = "-filter_complex 'null' 'it'\"'\"'s'" := by decide

end FilterGraph.Shell
