import FilterGraph.Document.Rules
import Mathlib.Data.List.Infix
import Mathlib.Data.Option.Basic

/-!
# What the rules of a document give

The three rules are checked by walks over the document. What they leave behind, said without the
walks:

* `Document.Names`: an address names an input, without a label, or else a filter; `names_of_order`:
  all addresses of a document that keeps the rules do;
* `Filters.Ordered`: each filter of a list comes after the filters that it refers to;
  `visit_progress`, `visitAll_progress`: every visit keeps its list ordered and takes in what it was
  asked to visit;
* `checkIds_eq_ok_iff`, `checkAddresses_eq_ok`, `Filters.exists_order`: when each of the rules is kept;
* **`Document.exists_rank`**: the filters of a document that keeps the rules have ranks that fall
  along their references.
-/

namespace FilterGraph

/-! ## 1. Addresses -/

namespace Document

variable {d : Document} {r : StreamAddress}

/-- The ids of the inputs. -/
def inputIds (d : Document) : List String := d.inputs.map (·.1)

/-- An address names an input, which has no labelled outputs, or a filter. -/
inductive Names (d : Document) (r : StreamAddress) : Prop where
  | input (h : r.node ∈ d.inputIds) (label : r.label = "")
  | filter (h : r.node ∉ d.inputIds) (f : FilterEntry) (hf : Entries.find? r.node d.filters = some f)

theorem any_eq_true_iff {ν : Type} {es : List (String × ν)} {id : String} :
    es.any (·.1 == id) = true ↔ id ∈ es.map (·.1) := by
  simp

/-- What has an entry can be looked up. -/
theorem exists_find?_of_mem {ν : Type} {es : List (String × ν)} {id : String}
    (h : id ∈ es.map (·.1)) : ∃ v, Entries.find? id es = some v :=
  Option.ne_none_iff_exists'.mp fun none => Entries.find?_eq_none_iff.mp none h

theorem names_of_addressError? (h : d.addressError? r = none) : d.Names r := by
  unfold addressError? at h
  split at h
  · rename_i hin
    split at h
    · rename_i hl
      exact .input (any_eq_true_iff.mp hin) (by simpa using hl)
    · cases h
  · rename_i hout
    split at h
    · rename_i hf
      obtain ⟨f, hf⟩ := exists_find?_of_mem (any_eq_true_iff.mp hf)
      exact .filter (fun hin => hout (any_eq_true_iff.mpr hin)) f hf
    · cases h

theorem names_of_checkAddresses (h : d.checkAddresses = .ok ()) :
    ∀ r ∈ d.addresses, d.Names r := by
  unfold checkAddresses at h
  split at h
  · cases h
  · rename_i hnone
    exact fun r hr => names_of_addressError? (List.findSome?_eq_none_iff.mp hnone r hr)

/-- The ids of a document pass when they are well formed and no input has the id of a filter. -/
theorem checkIds_eq_ok_iff : d.checkIds = .ok () ↔
    (∀ id ∈ d.inputIds ++ d.filters.map (·.1), wellFormedId id = true) ∧
      ∀ id ∈ d.inputIds, id ∉ d.filters.map (·.1) := by
  unfold checkIds
  rw [← inputIds]
  cases hf : (d.inputIds ++ d.filters.map (·.1)).find? (! wellFormedId ·) with
  | some id =>
    refine ⟨nofun, fun ⟨all, _⟩ => ?_⟩
    have bad := List.find?_some hf
    rw [all id (List.mem_of_find?_eq_some hf)] at bad
    cases bad
  | none =>
    have all : ∀ id ∈ d.inputIds ++ d.filters.map (·.1), wellFormedId id = true := by
      simpa using List.find?_eq_none.mp hf
    have shared : (d.inputIds.filter fun id => d.filters.any (·.1 == id)) = [] ↔
        ∀ id ∈ d.inputIds, id ∉ d.filters.map (·.1) := by
      simp [List.filter_eq_nil_iff]
    dsimp only
    split
    · rename_i hnil
      exact ⟨fun _ => ⟨all, shared.mp hnil⟩, fun _ => rfl⟩
    · rename_i hne
      exact ⟨nofun, fun h => absurd (shared.mpr h.2) hne⟩

/-- Addresses pass when each names something. -/
theorem checkAddresses_eq_ok (h : ∀ r ∈ d.addresses, d.Names r) : d.checkAddresses = .ok () := by
  have none : d.addresses.findSome? d.addressError? = none := by
    refine List.findSome?_eq_none_iff.mpr fun r hr => ?_
    unfold addressError?
    cases h r hr with
    | input hin label =>
      rw [if_pos (any_eq_true_iff.mpr hin), label]
      rfl
    | filter hout f hf =>
      have there := List.mem_map_of_mem (f := (·.1)) (Entries.mem_of_find? hf)
      rw [if_neg fun hin => hout (any_eq_true_iff.mp hin), if_pos (any_eq_true_iff.mpr there)]
  unfold checkAddresses
  rw [none]

/-- A document has an order when it keeps the two other rules and its filters have one. -/
theorem order_eq_ok_iff {order : List String} :
    d.order = .ok order ↔
      d.checkIds = .ok () ∧ d.checkAddresses = .ok () ∧ Filters.order d.filters = .ok order := by
  unfold Document.order
  cases d.checkIds <;> cases d.checkAddresses <;> simp [bind, Except.bind]

/-- **Every address of a document that keeps the rules names something.** -/
theorem names_of_order {order : List String} (h : d.order = .ok order) :
    ∀ r ∈ d.addresses, d.Names r :=
  names_of_checkAddresses (order_eq_ok_iff.mp h).2.1

end Document

/-! ## 2. The order of the filters -/

namespace Filters

variable {fs : Filters}

/-- Every filter of the list comes after the filters that it refers to. -/
def Ordered (fs : Filters) (done : List String) : Prop :=
  ∀ pre id post, done = pre ++ id :: post → ∀ f, Entries.find? id fs = some f →
    ∀ r ∈ f.inputs, (Entries.find? r.node fs).isSome → r.node ∈ pre

/-- What a visit of some ids does to an ordered list. -/
structure Progress (fs : Filters) (done done' ids : List String) : Prop where
  ordered : Ordered fs done'
  kept : done <+: done'
  visited : ∀ id ∈ ids, (Entries.find? id fs).isSome → id ∈ done'

theorem Ordered.snoc {done : List String} (h : Ordered fs done) {id : String}
    (hid : ∀ f, Entries.find? id fs = some f →
      ∀ r ∈ f.inputs, (Entries.find? r.node fs).isSome → r.node ∈ done) :
    Ordered fs (done ++ [id]) := by
  intro pre id' post heq f hf r hr hsome
  rcases List.eq_nil_or_concat post with rfl | ⟨post, z, rfl⟩
  · obtain ⟨rfl, hlast⟩ := List.append_inj' heq rfl
    cases hlast
    exact hid f hf r hr hsome
  · have heq' : done ++ [id] = (pre ++ id' :: post) ++ [z] := by simpa using heq
    obtain ⟨rfl, _⟩ := List.append_inj' heq' rfl
    exact h pre id' post rfl f hf r hr hsome

mutual

/-- A visit keeps its list ordered: it appends a filter after all that the filter refers to. -/
theorem visit_progress {path done done' : List String} {id : String}
    (h : visit fs path done id = .ok done') (ho : Ordered fs done) :
    Progress fs done done' [id] := by
  rw [visit] at h
  split at h
  · cases h
  split at h
  · rename_i hdone
    cases h
    exact ⟨ho, List.prefix_refl _, fun x hx _ => List.mem_singleton.mp hx ▸ hdone⟩
  split at h
  · rename_i hnone
    cases h
    refine ⟨ho, List.prefix_refl _, fun x hx hsome => ?_⟩
    rw [List.mem_singleton.mp hx, hnone] at hsome
    cases hsome
  · rename_i hp _ f hf
    cases hall : visitAll fs (path ++ [id]) done f.inputs with
    | error e => rw [hall] at h; cases h
    | ok d =>
      rw [hall] at h
      cases h
      have inner := visitAll_progress hall ho
      refine ⟨inner.ordered.snoc fun f' hf' r hr hsome => ?_,
        inner.kept.trans (List.prefix_append _ _), fun x hx _ => ?_⟩
      · rw [hf] at hf'
        cases hf'
        exact inner.visited r.node (List.mem_map_of_mem hr) hsome
      · rw [List.mem_singleton.mp hx]
        exact List.mem_append_right _ (List.mem_singleton_self id)
termination_by (fs.offPath path, 0)
decreasing_by exact Prod.Lex.left _ _ (offPath_append_lt ‹_› ‹_›)

theorem visitAll_progress {path done done' : List String} {rs : List StreamAddress}
    (h : visitAll fs path done rs = .ok done') (ho : Ordered fs done) :
    Progress fs done done' (rs.map (·.node)) := by
  match rs with
  | [] =>
    rw [visitAll] at h
    cases h
    exact ⟨ho, List.prefix_refl _, fun x hx => absurd hx List.not_mem_nil⟩
  | r :: rs =>
    rw [visitAll] at h
    split at h
    · cases h
    · rename_i d hd
      have first := visit_progress hd ho
      have rest := visitAll_progress h first.ordered
      refine ⟨rest.ordered, first.kept.trans rest.kept, fun x hx hsome => ?_⟩
      rw [List.map_cons, List.mem_cons] at hx
      rcases hx with rfl | hx
      · exact rest.kept.subset (first.visited _ (List.mem_singleton_self _) hsome)
      · exact rest.visited x hx hsome
termination_by (fs.offPath path, rs.length + 1)

end

/-- Visiting ids one after the other keeps the list ordered. -/
theorem foldlM_progress {ids done done' : List String}
    (h : ids.foldlM (fun done id => visit fs [] done id) done = .ok done')
    (ho : Ordered fs done) : Progress fs done done' ids := by
  induction ids generalizing done with
  | nil =>
    cases h
    exact ⟨ho, List.prefix_refl _, fun x hx => absurd hx List.not_mem_nil⟩
  | cons id ids ih =>
    rw [List.foldlM_cons] at h
    cases hv : visit fs [] done id with
    | error e => rw [hv] at h; cases h
    | ok d =>
      rw [hv] at h
      have first := visit_progress hv ho
      have rest := ih h first.ordered
      refine ⟨rest.ordered, first.kept.trans rest.kept, fun x hx hsome => ?_⟩
      rcases List.mem_cons.mp hx with rfl | hx
      · exact rest.kept.subset (first.visited _ (List.mem_singleton_self _) hsome)
      · exact rest.visited x hx hsome

/-- **The order holds every filter, after the filters that it refers to.** -/
theorem order_progress {order : List String} (h : Filters.order fs = .ok order) :
    Progress fs [] order (fs.map (·.1)) :=
  foldlM_progress h fun pre _ _ heq => by simp at heq

/-- Places in an ordered list fall along references. -/
theorem Ordered.idxOf_lt {done : List String} (h : Ordered fs done) {id : String} {f : FilterEntry}
    (hid : id ∈ done) (hf : Entries.find? id fs = some f) {r : StreamAddress} (hr : r ∈ f.inputs)
    (hsome : (Entries.find? r.node fs).isSome) : done.idxOf r.node < done.idxOf id := by
  obtain ⟨pre, post, heq, hfirst⟩ := List.eq_append_cons_of_mem hid
  have mem := h pre id post heq f hf r hr hsome
  rw [heq, List.idxOf_append_of_mem mem, List.idxOf_append_of_notMem hfirst, List.idxOf_cons_self]
  exact List.idxOf_lt_length_of_mem mem

/-! Conversely, references that lead downwards form no cycle. -/

section Rank

variable {rank : String → Nat}

theorem visitAll_ok {path : List String} {rs : List StreamAddress}
    (h : ∀ r ∈ rs, ∀ done, ∃ done', visit fs path done r.node = .ok done') (done : List String) :
    ∃ done', visitAll fs path done rs = .ok done' := by
  induction rs generalizing done with
  | nil => exact ⟨done, by rw [visitAll]⟩
  | cons r rs ih =>
    obtain ⟨done₁, h₁⟩ := h r List.mem_cons_self done
    obtain ⟨done₂, h₂⟩ := ih (fun r hr => h r (List.mem_cons_of_mem _ hr)) done₁
    exact ⟨done₂, by rw [visitAll, h₁]; exact h₂⟩

/-- A visit goes through when the filter lies below its path. The induction is on a bound for the rank
of the filter. -/
theorem visit_ok (hrank : ∀ id f, Entries.find? id fs = some f → ∀ r ∈ f.inputs,
      (Entries.find? r.node fs).isSome → rank r.node < rank id) (b : Nat) {path : List String}
    (hpath : ∀ x ∈ path, (Entries.find? x fs).isSome) {id : String}
    (hid : (Entries.find? id fs).isSome → rank id < b ∧ ∀ x ∈ path, rank id < rank x)
    (done : List String) : ∃ done', visit fs path done id = .ok done' := by
  induction b using Nat.strong_induction_on generalizing path id done with
  | h b ih =>
    have off : id ∉ path := fun hm => absurd ((hid (hpath id hm)).2 id hm) (Nat.lt_irrefl _)
    rw [visit, dif_neg off]
    split
    · exact ⟨done, rfl⟩
    split
    · exact ⟨done, rfl⟩
    · rename_i f hf
      obtain ⟨below, onPath⟩ := hid (by rw [hf]; rfl)
      have path' : ∀ x ∈ path ++ [id], (Entries.find? x fs).isSome ∧ rank id ≤ rank x := by
        intro x hx
        rcases List.mem_append.mp hx with hx | hx
        · exact ⟨hpath x hx, Nat.le_of_lt (onPath x hx)⟩
        · rw [List.mem_singleton.mp hx, hf]
          exact ⟨rfl, Nat.le_refl _⟩
      have visits : ∀ r ∈ f.inputs, ∀ done,
          ∃ done', visit fs (path ++ [id]) done r.node = .ok done' := by
        intro r hr done
        have falls := hrank id f hf r hr
        exact ih (rank id) below (fun x hx => (path' x hx).1)
          (fun there => ⟨falls there, fun x hx => Nat.lt_of_lt_of_le (falls there) (path' x hx).2⟩)
          done
      obtain ⟨done', hall⟩ := visitAll_ok visits done
      exact ⟨done' ++ [id], by rw [hall]; rfl⟩

/-- **Filters whose references lead downwards have an order.** -/
theorem exists_order (hrank : ∀ id f, Entries.find? id fs = some f → ∀ r ∈ f.inputs,
    (Entries.find? r.node fs).isSome → rank r.node < rank id) : ∃ order, Filters.order fs = .ok order := by
  have all : ∀ (ids done : List String),
      ∃ done', ids.foldlM (fun done id => visit fs [] done id) done = .ok done' := by
    intro ids
    induction ids with
    | nil => exact fun done => ⟨done, rfl⟩
    | cons id ids ih =>
      intro done
      obtain ⟨done₁, h₁⟩ := visit_ok hrank (rank id + 1) (fun _ h => absurd h List.not_mem_nil)
        (fun _ => ⟨Nat.lt_succ_self _, fun _ h => absurd h List.not_mem_nil⟩) done
      obtain ⟨done₂, h₂⟩ := ih done₁
      exact ⟨done₂, by rw [List.foldlM_cons, h₁]; exact h₂⟩
  exact all _ []

end Rank

end Filters

/-- **The references among the filters of a document that keeps the rules lead downwards**, and there
is a number above all ranks. -/
theorem Document.exists_rank {d : Document} {order : List String} (h : d.order = .ok order) :
    ∃ (rank : String → Nat) (b : Nat), (∀ id, rank id < b) ∧
      ∀ id f, Entries.find? id d.filters = some f → ∀ r ∈ f.inputs,
        (Entries.find? r.node d.filters).isSome → rank r.node < rank id := by
  have progress := Filters.order_progress (Document.order_eq_ok_iff.mp h).2.2
  refine ⟨order.idxOf, order.length + 1, fun id => Nat.lt_succ_of_le List.idxOf_le_length,
    fun id f hf r hr hsome => progress.ordered.idxOf_lt ?_ hf hr hsome⟩
  exact progress.visited id (List.mem_map_of_mem (Entries.mem_of_find? hf)) (by rw [hf]; rfl)

end FilterGraph
