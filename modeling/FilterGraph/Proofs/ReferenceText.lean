import FilterGraph.Proofs.Denotation
import FilterGraph.Text.Cut

/-!
# References as texts

Names are made of digits and the letter `s`, so nothing that a reference writes around its name can
be taken for a part of it: the colon before the letter of a component, the brackets, and the
semicolon that stands between statements.

* `IsName`: the names that a command gives to streams, `Named.isName` for the table of a command;
* `suffixed_inj`: a name with the suffix of a component gives back both;
* **`Reference.text_inj`**: a reference is known from its text.
-/

namespace FilterGraph

variable {name name' : String} {k k' : Option Selector} {c : Char}

/-! ## 1. Names -/

/-- A name of a stream: the position of a source, or the name of an output. -/
inductive IsName : String → Prop where
  | source (k : Nat) : IsName (StreamNames.sourceName k)
  | output (m : Nat) : IsName (StreamNames.outputName m)

namespace IsName

/-- Names are made of digits and one letter. -/
theorem char (h : IsName name) (hc : c ∈ name.toList) : c = 's' ∨ c.isDigit = true := by
  cases h with
  | source k => exact .inr (isDigit_of_mem_sourceName hc)
  | output m =>
    rw [toList_outputName] at hc
    exact (List.mem_cons.mp hc).imp id isDigit_of_mem_sourceName

theorem plain (h : IsName name) : Plain name := fun hc => absurd (h.char hc) (by decide)

end IsName

/-- The name of a stream in the table of a command. -/
theorem Graph.Named.isName {g : Graph} {s : Sorted} {names : StreamNames} (hn : g.Named s names)
    {ts : List NodeId} (h : g.sort ts = .ok s) {d : Digest} {l : Label}
    (hname : names.name? d l = some name) : IsName name := by
  by_cases hd : d ∈ (g.sources s).map g.hash
  · obtain ⟨i, hi, rfl⟩ := List.mem_map.mp hd
    obtain ⟨k, hk⟩ := List.mem_iff_getElem?.mp hi
    rw [hn.name?_source h hk l, Option.some_inj] at hname
    exact hname ▸ .source k
  · rw [hn.name?_of_not_source hd, StreamNames.assigned?] at hname
    split at hname
    · exact Option.some_inj.mp hname ▸ .output _
    · cases hname

/-! ## 2. Names with a component -/

/-- The colon parts a name from the letter of a component. -/
theorem cut_suffixed (h : Plain name) (k : Option Selector) :
    Text.cut ':' (name ++ selectorSuffix k).toList =
      (name.toList, k.map (·.letter.toList)) := by
  rw [String.toList_append, toList_selectorSuffix]
  exact Text.cut_eq_iff.mpr ⟨h, rfl⟩

/-- **A name with the suffix of a component gives back both.** -/
theorem suffixed_inj (h : Plain name) (h' : Plain name') :
    name ++ selectorSuffix k = name' ++ selectorSuffix k' ↔ name = name' ∧ k = k' := by
  constructor
  · intro heq
    have parts := congrArg (fun t => Text.cut ':' t.toList) heq
    simp only [cut_suffixed h, cut_suffixed h', Prod.mk.injEq] at parts
    have letters : Function.Injective fun s : Selector => s.letter.toList :=
      fun s t hst => Selector.letter_injective (String.toList_inj.mp hst)
    exact ⟨String.toList_inj.mp parts.1, Option.map_injective letters parts.2⟩
  · rintro ⟨rfl, rfl⟩
    rfl

/-- The characters of a name with the suffix of a component. -/
theorem IsName.suffixed_char (h : IsName name) (hc : c ∈ (name ++ selectorSuffix k).toList) :
    c ∈ [':', 'a', 'v', 's'] ∨ c.isDigit = true := by
  rw [String.toList_append, List.mem_append] at hc
  rcases hc with hc | hc
  · exact (h.char hc).imp (by rintro rfl; decide) id
  · have letters : (selectorSuffix k).toList ⊆ [':', 'a', 'v', 's'] := by
      rcases k with _ | _ | _ | _ <;> decide
    exact .inl (letters hc)

/-! ## 3. References -/

/-- What stands in brackets begins with one, and a name with its suffix does not. -/
theorem bracketed_ne_suffixed (h : IsName name) (t : String) :
    bracketed t ≠ name ++ selectorSuffix k := by
  intro heq
  have mem : '[' ∈ (name ++ selectorSuffix k).toList := by
    rw [← heq, bracketed, String.toList_append, String.toList_append]
    exact List.mem_append_left _ (List.mem_append_left _ (List.mem_singleton_self _))
  exact absurd (h.suffixed_char mem) (by decide)

/-- **A reference is known from its text.** -/
theorem Reference.text_inj {r r' : Reference} (h : IsName r.name) (h' : IsName r'.name) :
    r.text = r'.text ↔ r = r' := by
  refine ⟨fun heq => ?_, fun heq => heq ▸ rfl⟩
  obtain ⟨name, k, bare⟩ := r
  obtain ⟨name', k', bare'⟩ := r'
  unfold text at heq
  have same : name ++ selectorSuffix k = name' ++ selectorSuffix k' ∧ bare = bare' := by
    cases bare <;> cases bare'
    · exact ⟨bracketed_inj.mp heq, rfl⟩
    · exact absurd heq (bracketed_ne_suffixed h' _)
    · exact absurd heq.symm (bracketed_ne_suffixed h _)
    · exact ⟨heq, rfl⟩
  obtain ⟨rfl, rfl⟩ := (suffixed_inj h.plain h'.plain).mp same.1
  rw [same.2]

/-- Rows of references with the same texts are the same. -/
theorem Reference.map_text_inj {rs rs' : List Reference} (h : ∀ r ∈ rs, IsName r.name)
    (h' : ∀ r ∈ rs', IsName r.name) : rs.map text = rs'.map text ↔ rs = rs' := by
  refine ⟨fun heq => ?_, fun heq => heq ▸ rfl⟩
  rw [← List.forall₂_eq_eq_eq, List.forall₂_map_left_iff, List.forall₂_map_right_iff] at heq
  have row := forall₂_and_mem heq
  exact eq_of_forall₂ row fun r hr r' hab => (text_inj (h r hr) (h' r' hab.1.2)).mp hab.2

/-- The references of a row have names. -/
theorem Graph.Named.isName_of_references {g : Graph} {s : Sorted} {names : StreamNames}
    (hn : g.Named s names) {ts : List NodeId} (h : g.sort ts = .ok s) {final : Bool}
    {es : List Incoming} {rs : List Reference}
    (hrs : List.Forall₂ (fun e r => g.reference names final e = .ok r) es rs) :
    ∀ r ∈ rs, IsName r.name := by
  intro r hr
  obtain ⟨e, _, href⟩ := exists_mem_of_forall₂ hrs.flip hr
  exact hn.isName h (name?_of_reference href)

end FilterGraph
