import FilterGraph.Command.Reference
import FilterGraph.Proofs.DocumentShape

/-!
# Short forms of addresses

A short form is an id, possibly a dot with a label, and possibly a colon with the letter of a
component. It is read from the right: the first colon ends the target, and the first dot of the
target ends the id. So a label may hold dots, and the letter is all that stands behind the colon.

* `StreamAddress.Spells`: the grammar, an address beside its text;
* `parts_eq_iff`: the three parts of a text;
* `check_string_eq_ok_iff`: a text passes the check as an address exactly when it spells it;
* **`short_form_is_its_grammar`**: which texts pass, that an address is read back from its text, and
  that a text is written as it was but for a dot without a label.
-/

namespace FilterGraph.StreamAddress

open Schema Check

variable {r : StreamAddress} {t : String} {s n l : List Char} {o : Option (List Char)}

/-! ## 1. The grammar -/

/-- A label behind its dot; the empty label may go without. -/
inductive LabelPart : List Char → List Char → Prop where
  | absent : LabelPart [] []
  | dotted (l : List Char) : LabelPart l ('.' :: l)

/-- A text spells an address: the id, the label behind a dot, and the component behind a colon. -/
structure Spells (s : List Char) (r : StreamAddress) : Prop where
  named : r.node ≠ ""
  undotted : '.' ∉ r.node.toList
  node : ':' ∉ r.node.toList
  label : ':' ∉ r.label.toList
  form : ∃ tail, LabelPart r.label.toList tail ∧
    s = r.node.toList ++ tail ++ (selectorSuffix r.selector).toList

/-- The text of an address has a dot exactly when the label is not empty. -/
theorem text_eq (r : StreamAddress) :
    r.text = r.node ++ (if r.label = "" then "" else "." ++ r.label) ++
      selectorSuffix r.selector := by
  unfold text
  congr 1
  · simp
  · cases r.selector <;> rfl

/-! ## 2. Reading -/

/-- **The parts of a text**: an id without separators, a label without colon, and what stands behind
the colon. -/
theorem parts_eq_iff : parts s = (n, l, o) ↔ '.' ∉ n ∧ ':' ∉ n ∧ ':' ∉ l ∧
    ∃ tail, LabelPart l tail ∧ s = n ++ tail ++ o.elim [] (':' :: ·) := by
  have read : parts s = (n, l, o) ↔ ∃ target a, Text.cut ':' s = (target, o) ∧
      Text.cut '.' target = (n, a) ∧ a.getD [] = l := by
    constructor
    · intro heq
      cases heq
      exact ⟨_, _, rfl, rfl, rfl⟩
    · rintro ⟨target, a, outer, inner, rfl⟩
      simp only [parts, outer, inner]
  simp only [read, Text.cut_eq_iff]
  constructor
  · rintro ⟨target, a, ⟨colon, rfl⟩, ⟨dot, rfl⟩, rfl⟩
    rw [List.mem_append, not_or] at colon
    cases a with
    | none => exact ⟨dot, colon.1, nofun, [], .absent, rfl⟩
    | some l => exact ⟨dot, colon.1, fun h => colon.2 (List.mem_cons_of_mem _ h), _, .dotted l, rfl⟩
  · rintro ⟨dot, node, label, tail, part, rfl⟩
    cases part with
    | absent => exact ⟨n ++ [], none, ⟨by simpa using node, rfl⟩, ⟨dot, rfl⟩, rfl⟩
    | dotted =>
      refine ⟨n ++ '.' :: l, some l, ⟨?_, rfl⟩, ⟨dot, rfl⟩, rfl⟩
      simp [node, label]

/-- A component is read from its letter. -/
theorem checkSelector_string_eq_ok_iff {o : Option Selector} :
    checkSelector (.string t) = .ok o ↔ ∃ c, o = some c ∧ t = c.letter := by
  cases hc : Selector.ofLetter? t with
  | none =>
    have failed : checkSelector (.string t) = fail .notSelector := by simp [checkSelector, hc]
    rw [failed]
    constructor
    · intro h
      cases h
    · rintro ⟨c, _, rfl⟩
      rw [Selector.ofLetter?_letter] at hc
      cases hc
  | some k =>
    have found : checkSelector (.string t) = .ok (some k) := by simp [checkSelector, hc]
    rw [found, Selector.ofLetter?_eq_some_iff.mp hc]
    constructor
    · intro h
      cases h
      exact ⟨k, rfl, rfl⟩
    · rintro ⟨c, rfl, letter⟩
      rw [Selector.letter_injective letter]

/-- The members of a text without a component. -/
theorem checkMembers_whole_eq_ok_iff {id label : String} :
    checkMembers [("node", .string id), ("label", .string label)] = .ok r ↔
      id ≠ "" ∧ ⟨id, label, none⟩ = r := by
  have extras : noExtras ["node", "label", "selector"]
      [("node", .string id), ("label", .string label)] = .ok () := rfl
  have text : string (.string label) = .ok label := rfl
  simp [checkMembers, map_eq_ok_iff, required_eq_ok_iff, optional_eq_ok_iff,
    nonEmptyString_eq_ok_iff, Entries.find?, extras, text]

/-- The members of a text with a component. -/
theorem checkMembers_narrowed_eq_ok_iff {id label component : String} :
    checkMembers [("node", .string id), ("label", .string label),
        ("selector", .string component)] = .ok r ↔
      id ≠ "" ∧ ∃ c, component = Selector.letter c ∧ ⟨id, label, some c⟩ = r := by
  have extras : noExtras ["node", "label", "selector"]
      [("node", .string id), ("label", .string label), ("selector", .string component)] =
        .ok () := rfl
  have text : string (.string label) = .ok label := rfl
  simp [checkMembers, map_eq_ok_iff, required_eq_ok_iff, optional_eq_ok_iff,
    nonEmptyString_eq_ok_iff, checkSelector_string_eq_ok_iff, Entries.find?, extras, text,
    and_assoc]

/-- **An address is read from the parts of a text**, when there is an id. -/
theorem check_string_eq_ok_iff_parts : check (.string t) = .ok r ↔ r.node ≠ "" ∧
    parts t.toList = (r.node.toList, r.label.toList, r.selector.map (·.letter.toList)) := by
  obtain ⟨node, label, selector⟩ := r
  have unfolded : check (.string t) = checkMembers (expand t) := rfl
  rw [unfolded, expand]
  rcases parts t.toList with ⟨n, l, o⟩
  cases o with
  | none =>
    refine checkMembers_whole_eq_ok_iff.trans ?_
    constructor
    · rintro ⟨named, heq⟩
      cases heq
      exact ⟨named, by simp⟩
    · rintro ⟨named, heq⟩
      simp only [Prod.mk.injEq] at heq
      obtain ⟨rfl, rfl, whole⟩ := heq
      rw [String.ofList_toList, String.ofList_toList, Option.map_eq_none_iff.mp whole.symm]
      exact ⟨named, rfl⟩
  | some a =>
    refine checkMembers_narrowed_eq_ok_iff.trans ?_
    constructor
    · rintro ⟨named, c, letter, heq⟩
      cases heq
      exact ⟨named, by simp [← letter]⟩
    · rintro ⟨named, heq⟩
      simp only [Prod.mk.injEq] at heq
      obtain ⟨rfl, rfl, narrowed⟩ := heq
      obtain ⟨c, rfl, rfl⟩ := Option.map_eq_some_iff.mp narrowed.symm
      simp only [String.ofList_toList]
      exact ⟨named, c, rfl, rfl⟩

/-- **A text passes the check as an address exactly when it spells it.** -/
theorem check_string_eq_ok_iff : check (.string t) = .ok r ↔ Spells t.toList r := by
  rw [check_string_eq_ok_iff_parts, parts_eq_iff, ← toList_selectorSuffix]
  exact ⟨fun ⟨named, dot, node, label, form⟩ => ⟨named, dot, node, label, form⟩,
    fun ⟨named, dot, node, label, form⟩ => ⟨named, dot, node, label, form⟩⟩

/-! ## 3. Writing -/

/-- The characters of the text of an address. -/
theorem toList_text (r : StreamAddress) : ∃ tail, LabelPart r.label.toList tail ∧
    r.text.toList = r.node.toList ++ tail ++ (selectorSuffix r.selector).toList := by
  rw [text_eq]
  by_cases h : r.label = ""
  · exact ⟨[], by rw [h]; exact .absent, by simp [h]⟩
  · exact ⟨_, .dotted _, by simp [h]⟩

/-- **An address is read back from its text**, with or without the dot of an empty label. -/
theorem check_text (named : r.node ≠ "") (dot : '.' ∉ r.node.toList) (node : ':' ∉ r.node.toList)
    (label : ':' ∉ r.label.toList) : check (.string r.text) = .ok r ∧
      check (.string (r.node ++ "." ++ r.label ++ selectorSuffix r.selector)) = .ok r := by
  have dotted : (r.node ++ "." ++ r.label ++ selectorSuffix r.selector).toList =
      r.node.toList ++ '.' :: r.label.toList ++ (selectorSuffix r.selector).toList := by simp
  exact ⟨check_string_eq_ok_iff.mpr ⟨named, dot, node, label, toList_text r⟩,
    check_string_eq_ok_iff.mpr ⟨named, dot, node, label, _, .dotted _, dotted⟩⟩

/-- **A text is written as it was read**, but for a dot without a label. -/
theorem text_of_check (h : check (.string t) = .ok r) : r.text = t ∨
    r.label = "" ∧ t = r.node ++ "." ++ selectorSuffix r.selector ∧
      r.text = r.node ++ selectorSuffix r.selector := by
  obtain ⟨tail, part, form⟩ := (check_string_eq_ok_iff.mp h).form
  obtain ⟨node, label, selector⟩ := r
  dsimp only at part form
  generalize chars : label.toList = l at part
  rw [text_eq]
  cases part with
  | absent =>
    have empty : label = "" := String.toList_eq_nil_iff.mp chars
    refine .inl (String.toList_inj.mp ?_)
    rw [form]
    simp [empty]
  | dotted =>
    by_cases empty : label = ""
    · refine .inr ⟨empty, String.toList_inj.mp ?_, by simp [empty]⟩
      rw [form, ← chars, empty]
      simp
    · refine .inl (String.toList_inj.mp ?_)
      rw [form, ← chars]
      simp [empty]

/-! ## 4. Which texts pass -/

/-- The parts of a text by the places of its first colon and of the first dot before it. -/
theorem parts_eq_span (s : List Char) :
    (parts s).1 = (s.takeWhile (· ≠ ':')).takeWhile (· ≠ '.') ∧
      (parts s).2.2 = if ':' ∈ s then some (s.dropWhile (· ≠ ':')).tail else none := by
  constructor <;> simp only [parts, Text.cut_eq_span]

theorem mem_letters_iff {a : List Char} :
    a ∈ [['a'], ['v'], ['s']] ↔ ∃ c : Selector, c.letter.toList = a := by
  constructor
  · intro h
    simp only [List.mem_cons, List.not_mem_nil, or_false] at h
    rcases h with rfl | rfl | rfl
    · exact ⟨.audio, rfl⟩
    · exact ⟨.video, rfl⟩
    · exact ⟨.subtitle, rfl⟩
  · rintro ⟨c, rfl⟩
    cases c <;> decide

/-- **A text passes when it begins with an id, and the letter of a component is all that stands
behind its first colon**, if there is one. -/
theorem exists_check_string_iff : (∃ r, check (.string t) = .ok r) ↔
    (t.toList.takeWhile (· ≠ ':')).takeWhile (· ≠ '.') ≠ [] ∧
      (':' ∈ t.toList → (t.toList.dropWhile (· ≠ ':')).tail ∈ [['a'], ['v'], ['s']]) := by
  obtain ⟨node, component⟩ := parts_eq_span t.toList
  rw [← node, mem_letters_iff]
  constructor
  · rintro ⟨r, h⟩
    obtain ⟨named, heq⟩ := check_string_eq_ok_iff_parts.mp h
    rw [heq] at component ⊢
    refine ⟨by simpa using named, fun colon => ?_⟩
    rw [if_pos colon] at component
    obtain ⟨c, _, letter⟩ := Option.map_eq_some_iff.mp component
    exact ⟨c, letter⟩
  · rintro ⟨named, letters⟩
    have id : String.ofList (parts t.toList).1 ≠ "" := by
      rw [ne_eq, String.ofList_eq_empty_iff]
      exact named
    by_cases colon : ':' ∈ t.toList
    · obtain ⟨c, letter⟩ := letters colon
      refine ⟨⟨.ofList (parts t.toList).1, .ofList (parts t.toList).2.1, some c⟩,
        check_string_eq_ok_iff_parts.mpr ⟨id, ?_⟩⟩
      rw [if_pos colon, ← letter] at component
      simp [← component]
    · refine ⟨⟨.ofList (parts t.toList).1, .ofList (parts t.toList).2.1, none⟩,
        check_string_eq_ok_iff_parts.mpr ⟨id, ?_⟩⟩
      rw [if_neg colon] at component
      simp [← component]

/-! ## 5. The short form -/

/-- **The short form is its grammar.** A text passes exactly when the part before its first colon
begins with an id, up to the first dot, and nothing but the letter of a component stands behind the
colon. The text of an address gives what its record gives, whether or not an empty label has its
dot. And the text of what was read is the text that was read, except that a dot in front of an empty
label is left out. -/
theorem short_form_is_its_grammar :
    (∀ t : String, (∃ r, check (.string t) = .ok r) ↔
      (t.toList.takeWhile (· ≠ ':')).takeWhile (· ≠ '.') ≠ [] ∧
      (':' ∈ t.toList → (t.toList.dropWhile (· ≠ ':')).tail ∈ [['a'], ['v'], ['s']])) ∧
    (∀ r : StreamAddress, r.node ≠ "" → '.' ∉ r.node.toList → ':' ∉ r.node.toList →
      ':' ∉ r.label.toList → check r.toJson = .ok r ∧ check (.string r.text) = .ok r ∧
        check (.string (r.node ++ "." ++ r.label ++ selectorSuffix r.selector)) = .ok r) ∧
    ∀ t r, check (.string t) = .ok r → r.text = t ∨
      r.label = "" ∧ t = r.node ++ "." ++ selectorSuffix r.selector ∧
        r.text = r.node ++ selectorSuffix r.selector := by
  refine ⟨fun t => exists_check_string_iff, fun r named dot node label => ?_,
    fun t r h => text_of_check h⟩
  exact ⟨check_toJson named, check_text named dot node label⟩

/-- A label with a dot, and a dot without a label. -/
theorem short_form_is_its_grammar_split :
    check (toJson ⟨"split", "1.x", some .video⟩) = .ok ⟨"split", "1.x", some .video⟩ ∧
    check (.string "split.1.x:v") = .ok ⟨"split", "1.x", some .video⟩ ∧
    check (.string "split.:v") = .ok ⟨"split", "", some .video⟩ ∧
    (text ⟨"split", "", some .video⟩ = "split.:v" ∨ ("" : String) = "" ∧
      "split.:v" = "split" ++ "." ++ selectorSuffix (some .video) ∧
        text ⟨"split", "", some .video⟩ = "split" ++ selectorSuffix (some .video)) := by
  obtain ⟨_, records, written⟩ := short_form_is_its_grammar
  obtain ⟨record, short, _⟩ := records ⟨"split", "1.x", some .video⟩ (by decide) (by decide)
    (by decide) (by decide)
  obtain ⟨_, _, dotted⟩ := records ⟨"split", "", some .video⟩ (by decide) (by decide)
    (by decide) (by decide)
  have spelled : "split" ++ "." ++ "" ++ selectorSuffix (some .video) = "split.:v" := by decide
  have dropped : check (.string "split.:v") = .ok ⟨"split", "", some .video⟩ := spelled ▸ dotted
  exact ⟨record, short, dropped, written _ _ dropped⟩

end FilterGraph.StreamAddress
