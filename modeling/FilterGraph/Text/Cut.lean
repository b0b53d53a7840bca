/-!
# Cutting a text at a character

* `cut sep` parts a text at the first `sep`: what stands before it, and what stands after it if
  there is one;
* `pieces sep` parts it at every `sep`, so there is one piece more than there are separators;
* `cut_eq_iff`, `cut_eq_span`: what a cut is, by the text that it gives back and by its two sides;
* `pieces_intercalate`: pieces that are joined by the separator come apart again.
-/

namespace FilterGraph.Text

/-- The part before the first `sep`, and the part after it when `sep` occurs. -/
def cut (sep : Char) : List Char → List Char × Option (List Char)
  | [] => ([], none)
  | c :: r => if c = sep then ([], some r) else let (a, b) := cut sep r; (c :: a, b)

/-- The parts between the separators, from left to right. -/
def pieces (sep : Char) : List Char → List (List Char)
  | [] => [[]]
  | c :: r =>
    if c = sep then [] :: pieces sep r
    else match pieces sep r with
      | [] => [[c]]
      | p :: ps => (c :: p) :: ps

/-- There is always a piece. -/
theorem pieces_ne_nil (sep : Char) (s : List Char) : pieces sep s ≠ [] := by
  cases s with
  | nil => simp [pieces]
  | cons c r =>
    unfold pieces
    split
    · simp
    · split <;> simp

/-- A text without the separator is not cut. -/
theorem cut_eq_of_not_mem {sep : Char} {s : List Char} (h : sep ∉ s) : cut sep s = (s, none) := by
  induction s with
  | nil => rfl
  | cons c r ih =>
    simp only [List.mem_cons, not_or] at h
    simp [cut, Ne.symm h.1, ih h.2]

/-- The cut falls on the first separator. -/
theorem cut_append_cons {sep : Char} {a : List Char} (h : sep ∉ a) (b : List Char) :
    cut sep (a ++ sep :: b) = (a, some b) := by
  induction a with
  | nil => simp [cut]
  | cons c r ih =>
    simp only [List.mem_cons, not_or] at h
    simp [cut, Ne.symm h.1, ih h.2]

/-- What a cut gives: a part without the separator, and what goes on behind the separator. -/
theorem cut_eq_iff {sep : Char} {s a : List Char} {o : Option (List Char)} :
    cut sep s = (a, o) ↔ sep ∉ a ∧ s = a ++ o.elim [] (sep :: ·) := by
  constructor
  · intro h
    induction s generalizing a with
    | nil =>
      cases h
      simp
    | cons c r ih =>
      unfold cut at h
      split at h
      · rename_i hc
        cases h
        simp [hc]
      · rename_i hc
        cases h
        obtain ⟨free, text⟩ := ih rfl
        exact ⟨by simp [Ne.symm hc, free], congrArg (c :: ·) text⟩
  · rintro ⟨free, rfl⟩
    cases o with
    | none => simpa using cut_eq_of_not_mem free
    | some b => exact cut_append_cons free b

/-- The two sides of a cut: what stands before the first separator, and what stands behind it. -/
theorem cut_eq_span (sep : Char) (s : List Char) : cut sep s =
    (s.takeWhile (· ≠ sep), if sep ∈ s then some (s.dropWhile (· ≠ sep)).tail else none) := by
  induction s with
  | nil => rfl
  | cons c r ih =>
    by_cases h : c = sep
    · simp [cut, h]
    · simp [cut, h, ih, Ne.symm h]

/-- A text without the separator is one piece. -/
theorem pieces_eq_of_not_mem {sep : Char} {s : List Char} (h : sep ∉ s) : pieces sep s = [s] := by
  induction s with
  | nil => rfl
  | cons c r ih =>
    simp only [List.mem_cons, not_or] at h
    simp [pieces, Ne.symm h.1, ih h.2]

/-- The first piece ends at the first separator. -/
theorem pieces_append_cons {sep : Char} {a : List Char} (h : sep ∉ a) (b : List Char) :
    pieces sep (a ++ sep :: b) = a :: pieces sep b := by
  induction a with
  | nil => simp [pieces]
  | cons c r ih =>
    simp only [List.mem_cons, not_or] at h
    simp [pieces, Ne.symm h.1, ih h.2]

/-- **Pieces without the separator come apart as they were joined.** -/
theorem pieces_intercalate {sep : Char} {ps : List (List Char)} (hne : ps ≠ [])
    (h : ∀ p ∈ ps, sep ∉ p) : pieces sep ([sep].intercalate ps) = ps := by
  match ps with
  | [] => exact absurd rfl hne
  | [p] =>
    rw [List.intercalate_singleton]
    exact pieces_eq_of_not_mem (h p (List.mem_singleton_self p))
  | p :: q :: r =>
    have rest : ∀ x ∈ q :: r, sep ∉ x := fun x hx => h x (List.mem_cons_of_mem _ hx)
    rw [List.intercalate_cons_cons, List.append_assoc, List.singleton_append,
      pieces_append_cons (h p List.mem_cons_self),
      pieces_intercalate (List.cons_ne_nil q r) rest]

end FilterGraph.Text
