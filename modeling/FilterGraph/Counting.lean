/-!
# Counting what is left

The walks of this library end because the number of things they have not met goes down. The one
lemma for that: a smaller predicate that misses a member of the larger one counts fewer members.
-/

namespace FilterGraph

/-- A predicate that implies another and misses one of its members counts fewer members. -/
theorem countP_lt_countP {α : Type} {p q : α → Bool} {l : List α}
    (h : ∀ x, p x = true → q x = true) {a : α} (ha : a ∈ l) (hp : p a = false)
    (hq : q a = true) : l.countP p < l.countP q := by
  induction l with
  | nil => cases ha
  | cons b r ih =>
    simp only [List.countP_cons]
    have le : r.countP p ≤ r.countP q := List.countP_mono_left fun x _ => h x
    rcases List.mem_cons.1 ha with rfl | hr
    · simp only [hp, hq]
      simp
      omega
    · have := ih hr
      by_cases hb : p b = true
      · simp only [hb, h b hb]
        simpa using this
      · have hb : p b = false := by simpa using hb
        simp only [hb]
        by_cases hc : q b = true <;> simp [hc] <;> omega

end FilterGraph
