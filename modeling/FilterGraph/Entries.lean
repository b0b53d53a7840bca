/-!
# Ordered entries

A list of pairs that is used as a map: look-up takes the first pair of a key, and writing keeps the
place of a key that is there and appends a key that is new. The order of the list is the order in
which the keys were first written.

* `find?_modify`, `find?_set`: what a write does to the look-up;
* `mem_of_find?`, `find?_eq_some_iff_mem`: what a look-up gives is an entry, and where no key
  occurs twice every entry can be looked up;
* `keys_modify`, `nodup_keys_modify`: a write adds at most its own key, at the end;
* `find?_eq_none_iff`, `set_of_not_mem`: a key that cannot be looked up is new, and a write to it
  appends;
* `find?_map_values`, `map_values_modify`: look-up and write on a table whose values are mapped.
-/

namespace FilterGraph.Entries

variable {κ ν : Type} [DecidableEq κ]

/-- Changes the value at `k`, which `f` sees as `none` when the key is new. -/
def modify (k : κ) (f : Option ν → ν) : List (κ × ν) → List (κ × ν)
  | [] => [(k, f none)]
  | (a, v) :: r => if a = k then (a, f (some v)) :: r else (a, v) :: modify k f r

/-- The first value at `k`. -/
def find? (k : κ) : List (κ × ν) → Option ν
  | [] => none
  | (a, v) :: r => if a = k then some v else find? k r

/-- Writes `v` at `k`. -/
def set (k : κ) (v : ν) (es : List (κ × ν)) : List (κ × ν) := modify k (fun _ => v) es

/-- The keys in the order of their first writing. -/
def keys (es : List (κ × ν)) : List κ := es.map (·.1)

/-- The entries of a list of pairs written one after the other. -/
def ofPairs (ps : List (κ × ν)) : List (κ × ν) := ps.foldl (fun es p => set p.1 p.2 es) []

@[simp] theorem find?_nil (k : κ) : find? k ([] : List (κ × ν)) = none := rfl

theorem mem_of_find? {k : κ} {v : ν} {es : List (κ × ν)} (h : find? k es = some v) :
    (k, v) ∈ es := by
  induction es with
  | nil => cases h
  | cons e r ih =>
    obtain ⟨a, w⟩ := e
    unfold find? at h
    split at h
    · cases h; simp_all
    · exact List.mem_cons_of_mem _ (ih h)

theorem find?_modify (k j : κ) (f : Option ν → ν) (es : List (κ × ν)) :
    find? j (modify k f es) = if j = k then some (f (find? k es)) else find? j es := by
  induction es with
  | nil => by_cases h : j = k <;> simp [modify, find?, h, Ne.symm]
  | cons e r ih =>
    obtain ⟨a, v⟩ := e
    by_cases hk : a = k
    · subst hk
      by_cases h : j = a
      · subst h; simp [modify, find?]
      · simp [modify, find?, h, Ne.symm h]
    · by_cases h : j = k
      · subst h; simp [modify, find?, hk, ih]
      · by_cases ha : a = j
        · subst ha; simp [modify, find?, h]
        · simp [modify, find?, hk, ha, ih, h]

theorem find?_set (k j : κ) (v : ν) (es : List (κ × ν)) :
    find? j (set k v es) = if j = k then some v else find? j es := find?_modify ..

theorem keys_modify (k : κ) (f : Option ν → ν) (es : List (κ × ν)) :
    keys (modify k f es) = if k ∈ keys es then keys es else keys es ++ [k] := by
  induction es with
  | nil => simp [modify, keys]
  | cons e r ih =>
    obtain ⟨a, v⟩ := e
    by_cases h : a = k
    · simp [modify, keys, h]
    · have h' : ¬ k = a := fun e => h e.symm
      simp only [keys] at ih
      by_cases hm : k ∈ List.map (·.1) r
      · simp only [hm, if_true] at ih
        simp only [modify, h, keys, if_false, List.map_cons, ih, List.mem_cons, h', hm, or_true,
          if_true]
      · simp only [hm, if_false] at ih
        simp only [modify, h, keys, if_false, List.map_cons, ih, List.mem_cons, h', hm, or_self,
          List.cons_append]

theorem find?_eq_none_iff {k : κ} {es : List (κ × ν)} : find? k es = none ↔ k ∉ keys es := by
  induction es with
  | nil => simp [keys]
  | cons e r ih =>
    obtain ⟨a, v⟩ := e
    rw [keys] at ih ⊢
    rw [List.map_cons, List.mem_cons, not_or, find?]
    by_cases h : a = k
    · simp [h]
    · rw [if_neg h, ih]
      exact ⟨fun hm => ⟨Ne.symm h, hm⟩, And.right⟩

theorem set_of_not_mem {k : κ} {v : ν} {es : List (κ × ν)} (h : k ∉ keys es) :
    set k v es = es ++ [(k, v)] := by
  induction es with
  | nil => rfl
  | cons e r ih =>
    obtain ⟨a, w⟩ := e
    rw [keys, List.map_cons, List.mem_cons, not_or] at h
    rw [set, modify, if_neg (Ne.symm h.1)]
    exact congrArg _ (ih h.2)

theorem nodup_keys_modify (k : κ) (f : Option ν → ν) {es : List (κ × ν)} (h : (keys es).Nodup) :
    (keys (modify k f es)).Nodup := by
  rw [keys_modify]
  split
  · exact h
  · rename_i hk
    exact List.nodup_append.2 ⟨h, by simp, by rintro a ha b hb rfl; simp_all⟩

theorem find?_eq_some_iff_mem {k : κ} {v : ν} {es : List (κ × ν)} (h : (keys es).Nodup) :
    find? k es = some v ↔ (k, v) ∈ es := by
  refine ⟨mem_of_find?, fun hm => ?_⟩
  induction es with
  | nil => cases hm
  | cons e r ih =>
    obtain ⟨a, w⟩ := e
    simp only [keys, List.map_cons, List.nodup_cons] at h
    rcases List.mem_cons.mp hm with heq | hr
    · cases heq
      simp [find?]
    · have ha : a ≠ k := fun e => h.1 (e ▸ List.mem_map_of_mem hr)
      simp only [find?, ha, if_false]
      exact ih h.2 hr

/-! ## Tables whose values are mapped -/

section Values

variable {μ : Type} (φ : ν → μ)

theorem find?_map_values (k : κ) (es : List (κ × ν)) :
    find? k (es.map fun x => (x.1, φ x.2)) = (find? k es).map φ := by
  induction es with
  | nil => rfl
  | cons e r ih =>
    rw [List.map_cons, find?, find?, ih]
    split <;> rfl

/-- What is written to a table is written to its image. -/
theorem map_values_modify (k : κ) {f : Option ν → ν} {f' : Option μ → μ}
    (hf : ∀ o, f' (o.map φ) = φ (f o)) (es : List (κ × ν)) :
    (modify k f es).map (fun x => (x.1, φ x.2)) =
      modify k f' (es.map fun x => (x.1, φ x.2)) := by
  induction es with
  | nil =>
    rw [List.map_nil, modify, modify, List.map_cons, List.map_nil, ← hf]
    rfl
  | cons e r ih =>
    rw [List.map_cons, modify, modify]
    split
    · rw [List.map_cons, ← hf]
      rfl
    · rw [List.map_cons, ih]

end Values

end FilterGraph.Entries
