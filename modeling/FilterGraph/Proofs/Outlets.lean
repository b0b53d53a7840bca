import FilterGraph.Proofs.Sorting
import Mathlib.Algebra.Ring.Nat
import Mathlib.Data.List.Induction

/-!
# The outgoing edges as the inverse of the incoming edges

The sort records every edge it follows at the node that supplies it. Read back, the record of an
output is the list of the edges of the trace that take it, in the order of the trace.

* `Graph.Traversed`: a finished sort with its trace;
* `Graph.consumers`: the consumers of an output in a trace;
* `Traversed.mem_outgoing_iff`, `Traversed.nodup_outgoing_keys`: the outgoing edges of a node, label
  by label;
* `Graph.Shared`, `Traversed.shared_iff`: an output is taken by two edges, said of the graph and
  seen in the record.
-/

namespace FilterGraph.Graph

/-! ## 1. Consumers in a trace -/

/-- Whether an edge takes output `l` of the node numbered `h`. -/
def takes (g : Graph) (h : Digest) (l : Label) (e : Incoming) : Bool :=
  g.hash e.supply.node = h ∧ e.supply.label = l

/-- The consumers of an output, in the order of a trace. -/
def consumers (g : Graph) (T : List Hop) (h : Digest) (l : Label) : List Consumer :=
  (T.filter fun x => g.takes h l x.2).map Hop.consumer

/-- The record of a trace at the node numbered `h`. -/
def outlets (g : Graph) (T : List Hop) (h : Digest) : Outlets :=
  (Entries.find? h (T.foldl g.follow .empty).outgoing).getD []

variable {g : Graph} {ts : List NodeId} {s : Sorted} {T : List Hop}

@[simp] theorem takes_iff {h : Digest} {l : Label} {e : Incoming} :
    g.takes h l e = true ↔ g.hash e.supply.node = h ∧ e.supply.label = l := by
  simp [takes]

theorem consumers_snoc (T : List Hop) (x : Hop) (h : Digest) (l : Label) :
    g.consumers (T ++ [x]) h l =
      if g.takes h l x.2 then g.consumers T h l ++ [x.consumer] else g.consumers T h l := by
  unfold consumers
  split <;> simp_all

/-- One more edge changes the record of its supplier, at its label. -/
theorem outlets_snoc (T : List Hop) (x : Hop) (h : Digest) :
    g.outlets (T ++ [x]) h =
      if h = g.hash x.2.supply.node then
        Entries.modify x.2.supply.label (fun cs => cs.getD [] ++ [x.consumer]) (g.outlets T h)
      else g.outlets T h := by
  unfold outlets
  rw [List.foldl_append, List.foldl_cons, List.foldl_nil, follow, Sorted.record,
    Entries.find?_modify]
  split
  · rename_i heq
    rw [heq]
    rfl
  · rfl

/-- No label is recorded twice. -/
theorem nodup_outlets_keys (T : List Hop) (h : Digest) : (Entries.keys (g.outlets T h)).Nodup := by
  induction T using List.reverseRecOn with
  | nil => exact List.nodup_nil
  | append_singleton T x ih =>
    rw [outlets_snoc]
    split
    · exact Entries.nodup_keys_modify _ _ ih
    · exact ih

/-- **A label is recorded with its consumers, when there are any.** -/
theorem find?_outlets (T : List Hop) (h : Digest) (l : Label) :
    Entries.find? l (g.outlets T h) =
      if g.consumers T h l = [] then none else some (g.consumers T h l) := by
  induction T using List.reverseRecOn with
  | nil => rfl
  | append_singleton T x ih =>
    rw [outlets_snoc, consumers_snoc]
    by_cases hh : h = g.hash x.2.supply.node
    · by_cases hl : l = x.2.supply.label
      · have ht : g.takes h l x.2 = true := takes_iff.mpr ⟨hh.symm, hl.symm⟩
        have hne : g.consumers T h l ++ [x.consumer] ≠ [] := by simp
        rw [if_pos hh, if_pos ht, Entries.find?_modify, if_pos hl, ← hl, ih, if_neg hne]
        by_cases hc : g.consumers T h l = [] <;> simp [hc]
      · have ht : ¬ g.takes h l x.2 = true := fun h => hl (takes_iff.mp h).2.symm
        rw [if_pos hh, if_neg ht, Entries.find?_modify, if_neg hl, ih]
    · have ht : ¬ g.takes h l x.2 = true := fun h => hh (takes_iff.mp h).1.symm
      rw [if_neg hh, if_neg ht, ih]

theorem mem_outlets_iff {T : List Hop} {h : Digest} {l : Label} {cs : List Consumer} :
    (l, cs) ∈ g.outlets T h ↔ cs = g.consumers T h l ∧ cs ≠ [] := by
  rw [← Entries.find?_eq_some_iff_mem (nodup_outlets_keys T h), find?_outlets]
  split
  · rename_i hc
    rw [hc]
    constructor
    · intro h; cases h
    · rintro ⟨rfl, hne⟩; exact absurd rfl hne
  · rename_i hc
    rw [Option.some.injEq]
    constructor
    · rintro rfl; exact ⟨rfl, hc⟩
    · rintro ⟨rfl, _⟩; rfl

/-! ## 2. The record of a sort -/

/-- A finished sort, with the order in which it followed the edges. -/
structure Traversed (g : Graph) (ts : List NodeId) (s : Sorted) (T : List Hop) : Prop where
  sort : g.sort ts = .ok s
  run : g.Reached ts [] s T

theorem exists_traversed (h : g.sort ts = .ok s) : ∃ T, g.Traversed ts s T := by
  obtain ⟨T, hr⟩ := sort_ok h
  exact ⟨T, h, hr⟩

/-- **The trace is the edges of the sorted nodes**, each once. -/
theorem Traversed.perm (h : g.Traversed ts s T) : T.Perm (s.nodes.flatMap g.hops) := by
  simpa [remaining] using h.run.hops_perm

theorem Traversed.mem_iff (h : g.Traversed ts s T) {i : NodeId} {e : Incoming} :
    (i, e) ∈ T ↔ i ∈ s.nodes ∧ e ∈ g.incoming i := by
  rw [h.perm.mem_iff, List.mem_flatMap]
  constructor
  · rintro ⟨j, hj, hx⟩
    obtain ⟨e', he', heq⟩ := List.mem_map.mp hx
    cases heq
    exact ⟨hj, he'⟩
  · rintro ⟨hi, he⟩
    exact ⟨i, hi, List.mem_map_of_mem he⟩

theorem Traversed.outgoing_eq (h : g.Traversed ts s T) (i : NodeId) :
    g.outgoing s i = g.outlets T (g.hash i) := by
  unfold outgoing outlets
  rw [h.run.outgoing_eq]

/-- **The outgoing edges of a node**: the labels with consumers, and all consumers of each. -/
theorem Traversed.mem_outgoing_iff (h : g.Traversed ts s T) {i : NodeId} {l : Label}
    {cs : List Consumer} :
    (l, cs) ∈ g.outgoing s i ↔ cs = g.consumers T (g.hash i) l ∧ cs ≠ [] := by
  rw [h.outgoing_eq]
  exact mem_outlets_iff

theorem Traversed.nodup_outgoing_keys (h : g.Traversed ts s T) (i : NodeId) :
    ((g.outgoing s i).map (·.1)).Nodup := by
  rw [h.outgoing_eq]
  exact nodup_outlets_keys T _

/-- An edge of a sorted node is recorded. -/
theorem Traversed.consumer_mem (h : g.Traversed ts s T) {i : NodeId} {e : Incoming}
    (hi : i ∈ s.nodes) (he : e ∈ g.incoming i) :
    Hop.consumer (i, e) ∈ g.consumers T (g.hash e.supply.node) e.supply.label := by
  unfold consumers
  refine List.mem_map_of_mem (List.mem_filter.mpr ⟨h.mem_iff.mpr ⟨hi, he⟩, ?_⟩)
  exact takes_iff.mpr ⟨rfl, rfl⟩

/-- What is recorded is an edge of a sorted node. -/
theorem Traversed.of_consumer_mem (h : g.Traversed ts s T) {d : Digest} {l : Label} {c : Consumer}
    (hc : c ∈ g.consumers T d l) :
    ∃ i ∈ s.nodes, ∃ e ∈ g.incoming i, g.takes d l e = true ∧ c = Hop.consumer (i, e) := by
  obtain ⟨⟨i, e⟩, hx, rfl⟩ := List.mem_map.mp hc
  obtain ⟨hT, ht⟩ := List.mem_filter.mp hx
  obtain ⟨hi, he⟩ := h.mem_iff.mp hT
  exact ⟨i, hi, e, he, ht, rfl⟩

/-- The number of consumers of an output, counted at the nodes that they enter. -/
theorem Traversed.length_consumers (h : g.Traversed ts s T) (d : Digest) (l : Label) :
    (g.consumers T d l).length =
      (s.nodes.map fun i => (g.incoming i).countP (g.takes d l)).sum := by
  unfold consumers
  rw [List.length_map, ← List.countP_eq_length_filter, h.perm.countP_eq, List.countP_flatMap]
  congr 1
  refine List.map_congr_left fun i _ => ?_
  simp [hops, List.countP_map, Function.comp_def]

/-! ## 3. Shared outputs -/

/-- Output `l` of the nodes numbered `d` is taken by two edges of nodes above the terminals: two of
one node, or edges of two nodes that are not equal. -/
def Shared (g : Graph) (ts : List NodeId) (d : Digest) (l : Label) : Prop :=
  (∃ i, g.Above ts i ∧ 2 ≤ (g.incoming i).countP (g.takes d l)) ∨
    ∃ i j, g.Above ts i ∧ g.Above ts j ∧ g.hash i ≠ g.hash j ∧
      (∃ e ∈ g.incoming i, g.takes d l e = true) ∧ ∃ e ∈ g.incoming j, g.takes d l e = true

/-- A sum reaches two in one place or in two. -/
theorem two_le_sum_iff {α : Type} {f : α → Nat} {l : List α} (hn : l.Nodup) :
    2 ≤ (l.map f).sum ↔
      (∃ a ∈ l, 2 ≤ f a) ∨ ∃ a ∈ l, ∃ b ∈ l, a ≠ b ∧ 1 ≤ f a ∧ 1 ≤ f b := by
  induction l with
  | nil => simp
  | cons a r ih =>
    obtain ⟨ha, hr⟩ := List.nodup_cons.mp hn
    have pos : 1 ≤ (r.map f).sum ↔ ∃ b ∈ r, 1 ≤ f b := by
      refine List.sum_pos_iff_exists_pos_nat.trans ?_
      simp [Nat.one_le_iff_ne_zero, Nat.pos_iff_ne_zero]
    rw [List.map_cons, List.sum_cons]
    constructor
    · intro h
      by_cases h2 : 2 ≤ f a
      · exact .inl ⟨a, List.mem_cons_self, h2⟩
      by_cases h1 : 1 ≤ f a
      · obtain ⟨b, hb, hfb⟩ := pos.mp (by omega)
        exact .inr ⟨a, List.mem_cons_self, b, List.mem_cons_of_mem _ hb,
          fun hab => ha (hab ▸ hb), h1, hfb⟩
      · rcases (ih hr).mp (by omega) with ⟨b, hb, hfb⟩ | ⟨b, hb, c, hc, hbc, hfb, hfc⟩
        · exact .inl ⟨b, List.mem_cons_of_mem _ hb, hfb⟩
        · exact .inr ⟨b, List.mem_cons_of_mem _ hb, c, List.mem_cons_of_mem _ hc, hbc, hfb, hfc⟩
    · rintro (⟨b, hb, hfb⟩ | ⟨b, hb, c, hc, hbc, hfb, hfc⟩)
      · rcases List.mem_cons.mp hb with rfl | hb
        · omega
        · have := (ih hr).mpr (.inl ⟨b, hb, hfb⟩)
          omega
      · rcases List.mem_cons.mp hb with rfl | hb' <;> rcases List.mem_cons.mp hc with rfl | hc'
        · exact absurd rfl hbc
        · have := pos.mpr ⟨c, hc', hfc⟩
          omega
        · have := pos.mpr ⟨b, hb', hfb⟩
          omega
        · have := (ih hr).mpr (.inr ⟨b, hb', c, hc', hbc, hfb, hfc⟩)
          omega

/-- Equal nodes take an output equally often. -/
theorem Coherent.countP_takes (hc : g.Coherent ts) {i j : NodeId} (hi : g.Above ts i)
    (hj : g.Above ts j) (hij : g.hash i = g.hash j) (d : Digest) (l : Label) :
    (g.incoming i).countP (g.takes d l) = (g.incoming j).countP (g.takes d l) := by
  have count := (hc i j hi hj hij).countP_eq
    (fun t : Identity.Term => decide (t.supplier = d ∧ t.supplierLabel = l))
  rw [List.countP_map, List.countP_map] at count
  exact count

/-- **An output has two consumers exactly when it is shared.** -/
theorem Traversed.shared_iff (h : g.Traversed ts s T) (hc : g.Coherent ts) (d : Digest)
    (l : Label) : 2 ≤ (g.consumers T d l).length ↔ g.Shared ts d l := by
  have nodup : s.nodes.Nodup := (sort_nodup h.sort).of_map
  rw [h.length_consumers, two_le_sum_iff nodup]
  constructor
  · rintro (⟨i, hi, h2⟩ | ⟨i, hi, j, hj, hij, h1, h1'⟩)
    · exact .inl ⟨i, sort_above h.sort i hi, h2⟩
    · refine .inr ⟨i, j, sort_above h.sort i hi, sort_above h.sort j hj,
        fun heq => hij (eq_of_mem_sort h.sort hi hj heq), ?_, ?_⟩
      · exact List.countP_pos_iff.mp h1
      · exact List.countP_pos_iff.mp h1'
  · rintro (⟨i, hi, h2⟩ | ⟨i, j, hi, hj, hij, h1, h1'⟩)
    · obtain ⟨r, hr, hri⟩ := exists_mem_sort hc h.sort hi
      have count := hc.countP_takes hi (sort_above h.sort r hr) hri.symm d l
      exact .inl ⟨r, hr, count ▸ h2⟩
    · obtain ⟨r, hr, hri⟩ := exists_mem_sort hc h.sort hi
      obtain ⟨q, hq, hqj⟩ := exists_mem_sort hc h.sort hj
      have count := hc.countP_takes hi (sort_above h.sort r hr) hri.symm d l
      have count' := hc.countP_takes hj (sort_above h.sort q hq) hqj.symm d l
      refine .inr ⟨r, hr, q, hq, fun heq => hij ?_, ?_, ?_⟩
      · rw [← hri, ← hqj, heq]
      · exact count ▸ List.countP_pos_iff.mpr h1
      · exact count' ▸ List.countP_pos_iff.mpr h1'

end FilterGraph.Graph
