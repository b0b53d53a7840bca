import FilterGraph.Proofs.Construction
import FilterGraph.Proofs.Traversal

/-!
# The sort is a dependency order

What `Graph.sort` gives for any terminals, in any order, repeated or above one another.

* `sort_above`, `sort_nodup`, `sort_ordered`: the nodes that come out are above the terminals, no
  number twice, each after what feeds it;
* `exists_mem_sort`, `supplier_before`: in a coherent graph every node above the terminals is among
  them, itself or an equal node, behind its suppliers;
* `sort_eq_error_iff_cyclic`: it fails exactly when the feeding relation has a cycle;
* **`sort_is_dependency_order`**: all of it for a graph without cycles.
-/

namespace FilterGraph.Graph

variable {g : Graph} {ts : List NodeId} {s : Sorted}

/-! ## 1. Every graph -/

theorem sort_above (h : g.sort ts = .ok s) : ∀ i ∈ s.nodes, g.Above ts i := by
  obtain ⟨T, hr⟩ := sort_ok h
  exact fun i hi => hr.above i (List.mem_append_left _ hi)

theorem sort_nodup (h : g.sort ts = .ok s) : (s.nodes.map g.hash).Nodup := by
  obtain ⟨T, hr⟩ := sort_ok h
  simpa using hr.nodup

theorem sort_ordered (h : g.sort ts = .ok s) : g.Ordered s.nodes := by
  obtain ⟨T, hr⟩ := sort_ok h
  exact hr.ordered

theorem sort_covers (h : g.sort ts = .ok s) {t : NodeId} (ht : t ∈ ts) :
    g.hash t ∈ s.nodes.map g.hash := by
  obtain ⟨T, hr⟩ := sort_ok h
  simpa using hr.covers t ht

/-- Sorted nodes of one number are one. -/
theorem eq_of_mem_sort (h : g.sort ts = .ok s) {i j : NodeId} (hi : i ∈ s.nodes)
    (hj : j ∈ s.nodes) (hij : g.hash i = g.hash j) : i = j :=
  List.inj_on_of_nodup_map (sort_nodup h) hi hj hij

/-- A sort fails only at a cycle. -/
theorem cyclic_of_sort_error {c : CycleFound} (h : g.sort ts = .error c) : g.Cyclic ts := by
  obtain ⟨ts', hpre, hb⟩ := sort_error h
  exact Cyclic.mono (fun _ ht => hpre.subset ht) ⟨_, hb.linked⟩

/-! ## 2. Coherent graphs -/

/-- What feeds a node is sorted before the node that stands for it. -/
theorem supplier_mem_front (hc : g.Coherent ts) (h : g.sort ts = .ok s) {i r : NodeId}
    (hi : g.Above ts i) (hri : g.hash r = g.hash i) {e : Incoming} (he : e ∈ g.incoming i)
    {pre post : List NodeId} (hsplit : s.nodes = pre ++ r :: post) :
    g.hash e.supply.node ∈ pre.map g.hash := by
  have hr : g.Above ts r := sort_above h r (by simp [hsplit])
  obtain ⟨e', he', hterm⟩ := hc.counterpart hi hr hri.symm he
  have same : g.hash e'.supply.node = g.hash e.supply.node := congrArg Identity.Term.supplier hterm
  rw [← same]
  exact sort_ordered h pre r post hsplit e' he'

/-- **Every node above the terminals is sorted**, itself or a node of its number. -/
theorem exists_mem_sort (hc : g.Coherent ts) (h : g.sort ts = .ok s) {i : NodeId}
    (hi : g.Above ts i) : ∃ r ∈ s.nodes, g.hash r = g.hash i := by
  induction hi with
  | terminal ht => exact List.mem_map.mp (sort_covers h ht)
  | feeds hi he ih =>
    obtain ⟨r, hr, hri⟩ := ih
    obtain ⟨pre, post, hsplit⟩ := List.append_of_mem hr
    obtain ⟨u, hu, hnum⟩ := List.mem_map.mp (supplier_mem_front hc h hi hri he hsplit)
    exact ⟨u, by rw [hsplit]; exact List.mem_append_left _ hu, hnum⟩

/-- Every edge above the terminals has its counterpart at a sorted node. -/
theorem exists_mem_sort_edge (hc : g.Coherent ts) (h : g.sort ts = .ok s) {i : NodeId}
    (hi : g.Above ts i) {e : Incoming} (he : e ∈ g.incoming i) :
    ∃ r ∈ s.nodes, g.hash r = g.hash i ∧ ∃ e' ∈ g.incoming r, g.term e' = g.term e := by
  obtain ⟨r, hr, hri⟩ := exists_mem_sort hc h hi
  exact ⟨r, hr, hri, hc.counterpart hi (sort_above h r hr) hri.symm he⟩

/-- **A supplier stands before every node that it feeds.** -/
theorem supplier_before (hc : g.Coherent ts) (h : g.sort ts = .ok s) {i : NodeId}
    (hi : g.Above ts i) {e : Incoming} (he : e ∈ g.incoming i) :
    (s.nodes.map g.hash).idxOf (g.hash e.supply.node) <
      (s.nodes.map g.hash).idxOf (g.hash i) := by
  obtain ⟨r, hr, hri⟩ := exists_mem_sort hc h hi
  obtain ⟨pre, post, hsplit⟩ := List.append_of_mem hr
  have mem := supplier_mem_front hc h hi hri he hsplit
  have fresh : g.hash i ∉ pre.map g.hash := by
    have nodup := sort_nodup h
    rw [hsplit, List.map_append, List.map_cons, List.nodup_middle, List.nodup_cons, hri] at nodup
    exact fun hm => nodup.1 (List.mem_append_left _ hm)
  rw [hsplit, List.map_append, List.map_cons, List.idxOf_append, if_pos mem, List.idxOf_append,
    if_neg fresh, hri, List.idxOf_cons_self, Nat.zero_add]
  exact List.idxOf_lt_length_of_mem mem

theorem not_cyclic_of_sort_ok (hc : g.Coherent ts) (h : g.sort ts = .ok s) : ¬ g.Cyclic ts :=
  not_cyclic_of_rank (fun d => (s.nodes.map g.hash).idxOf d)
    fun _ hi _ he => supplier_before hc h hi he

/-- **A sort fails exactly at a cycle.** -/
theorem sort_eq_error_iff_cyclic (hc : g.Coherent ts) :
    (∃ c, g.sort ts = .error c) ↔ g.Cyclic ts := by
  constructor
  · rintro ⟨c, h⟩
    exact cyclic_of_sort_error h
  · intro hcyc
    cases h : g.sort ts with
    | error c => exact ⟨c, rfl⟩
    | ok s => exact absurd hcyc (not_cyclic_of_sort_ok hc h)

/-- **Without a cycle the sort gives the nodes above the terminals and no others, each number
once, and every node behind the nodes that feed it.** -/
theorem sort_is_dependency_order (hc : g.Coherent ts) (ha : ¬ g.Cyclic ts) :
    ∃ s, g.sort ts = .ok s ∧
      (∀ i ∈ s.nodes, g.Above ts i) ∧
      (∀ i, g.Above ts i → (s.nodes.map g.hash).count (g.hash i) = 1) ∧
      ∀ i, g.Above ts i → ∀ e ∈ g.incoming i,
        (s.nodes.map g.hash).idxOf (g.hash e.supply.node) <
          (s.nodes.map g.hash).idxOf (g.hash i) := by
  cases h : g.sort ts with
  | error c => exact absurd (cyclic_of_sort_error h) ha
  | ok s =>
    refine ⟨s, rfl, sort_above h, fun i hi => ?_, fun i hi e he => supplier_before hc h hi he⟩
    obtain ⟨r, hr, hri⟩ := exists_mem_sort hc h hi
    exact List.count_eq_one_of_mem (sort_nodup h) (hri ▸ List.mem_map_of_mem hr)

theorem sort_is_dependency_order_sample :
    sample.Coherent [4, 2, 5, 4] ∧ ¬ sample.Cyclic [4, 2, 5, 4] ∧
    ∃ s, sample.sort [4, 2, 5, 4] = .ok s ∧
      (∀ i ∈ s.nodes, sample.Above [4, 2, 5, 4] i) ∧
      (∀ i, sample.Above [4, 2, 5, 4] i → (s.nodes.map sample.hash).count (sample.hash i) = 1) ∧
      ∀ i, sample.Above [4, 2, 5, 4] i → ∀ e ∈ sample.incoming i,
        (s.nodes.map sample.hash).idxOf (sample.hash e.supply.node) <
          (s.nodes.map sample.hash).idxOf (sample.hash i) :=
  have hc : sample.Coherent [4, 2, 5, 4] := (sample_collisionless (by decide)).coherent
  have ha : ¬ sample.Cyclic [4, 2, 5, 4] := sample_not_cyclic (by decide)
  ⟨hc, ha, sort_is_dependency_order hc ha⟩

/-- The second copy of the source does not come out, and the join waits for the split. -/
example : (sample.sort [4, 2, 5, 4]).toOption.map (·.nodes) = some [0, 2, 3, 4, 5] := by
  rw [sample_eq]
  cbv

end FilterGraph.Graph
