import FilterGraph.Proofs.Outlets
import Mathlib.Data.List.Perm.Basic

/-!
# Every edge is recorded once

The edges of a sort can be read off twice: at the nodes that they enter, which carry them, and at
the nodes that they leave, from the record. Both readings give the same edges, each as often.

* `Connection`: an edge with both ends; the supplying node is told by its number;
* `Graph.entering`, `Graph.leaving`: the two readings at one node;
* `leaving_perm`: what leaves a node is what the trace has of its number;
* `perm_fibres`: a list is its parts over the keys of its members;
* **`leaving_perm_entering`**: over all sorted nodes the two readings agree, and the record has no
  node that is not sorted.
-/

namespace FilterGraph

/-- An edge with both its ends. -/
structure Connection where
  supplier : Digest
  output : Label
  selector : Option Selector
  node : NodeId
  input : Label
  deriving DecidableEq, Repr

namespace Graph

variable {g : Graph} {ts : List NodeId} {s : Sorted} {T : List Hop}

/-- An edge of a trace with both its ends. -/
def connection (g : Graph) (x : Hop) : Connection :=
  ⟨g.hash x.2.supply.node, x.2.supply.label, x.2.supply.selector, x.1, x.2.label⟩

/-- The edges that enter a node, as the node carries them. -/
def entering (g : Graph) (i : NodeId) : List Connection :=
  (g.incoming i).map fun e =>
    ⟨g.hash e.supply.node, e.supply.label, e.supply.selector, i, e.label⟩

/-- The edges that leave a node, as the sort has recorded them. -/
def leaving (g : Graph) (s : Sorted) (i : NodeId) : List Connection :=
  (g.outgoingEdges s i).map fun x => ⟨g.hash i, x.1, x.2.selector, x.2.node, x.2.label⟩

/-! ## 1. What leaves one node -/

/-- The consumers of a record with the labels that they take. -/
def consumed (o : Outlets) : List (Label × Consumer) := o.flatMap fun m => m.2.map (m.1, ·)

/-- One more consumer at a label is one more edge. -/
theorem consumed_modify (l : Label) (c : Consumer) (o : Outlets) :
    (consumed (Entries.modify l (fun cs => cs.getD [] ++ [c]) o)).Perm (consumed o ++ [(l, c)]) := by
  induction o with
  | nil => exact List.Perm.refl _
  | cons m o ih =>
    obtain ⟨k, cs⟩ := m
    unfold Entries.modify
    split
    · rename_i heq
      subst heq
      have late : (cs.map (k, ·) ++ ([(k, c)] ++ consumed o)).Perm
          (cs.map (k, ·) ++ (consumed o ++ [(k, c)])) := List.perm_append_comm.append_left _
      simpa [consumed] using late
    · have rest := ih.append_left (cs.map (k, ·))
      simpa [consumed] using rest

/-- The record of a trace at a number has every edge of the trace that this number supplies. -/
theorem consumed_outlets (T : List Hop) (h : Digest) :
    (consumed (g.outlets T h)).Perm
      ((T.filter fun x => g.hash x.2.supply.node = h).map fun x =>
        (x.2.supply.label, x.consumer)) := by
  induction T using List.reverseRecOn with
  | nil => exact List.Perm.refl _
  | append_singleton T x ih =>
    rw [outlets_snoc, List.filter_append, List.map_append]
    split
    · rename_i heq
      subst heq
      have grown := consumed_modify x.2.supply.label x.consumer
        (g.outlets T (g.hash x.2.supply.node))
      simpa using grown.trans (ih.append_right _)
    · rename_i hne
      have other : ¬ g.hash x.2.supply.node = h := fun heq => hne heq.symm
      simpa [other] using ih

/-- **What leaves a node is what the trace has of its number.** -/
theorem Traversed.leaving_perm (h : g.Traversed ts s T) (i : NodeId) :
    (g.leaving s i).Perm
      ((T.map g.connection).filter fun c => c.supplier = g.hash i) := by
  have recorded := (consumed_outlets (g := g) T (g.hash i)).map fun x : Label × Consumer =>
    (⟨g.hash i, x.1, x.2.selector, x.2.node, x.2.label⟩ : Connection)
  rw [List.map_map] at recorded
  unfold leaving outgoingEdges
  rw [h.outgoing_eq, List.filter_map]
  refine recorded.trans (List.Perm.of_eq (List.map_congr_left fun x hx => ?_))
  have supplied : g.hash x.2.supply.node = g.hash i := by simpa using (List.mem_filter.mp hx).2
  simp only [Function.comp_apply, connection, Hop.consumer, supplied]

/-! ## 2. All nodes -/

/-- A list is its parts over the keys of its members, when no key occurs twice. -/
theorem perm_fibres {α κ : Type} [DecidableEq κ] (key : α → κ) {keys : List κ} {l : List α}
    (hn : keys.Nodup) (hl : ∀ a ∈ l, key a ∈ keys) :
    (keys.flatMap fun k => l.filter fun a => key a = k).Perm l := by
  induction keys generalizing l with
  | nil =>
    have empty : l = [] := List.eq_nil_iff_forall_not_mem.mpr fun a ha => by simpa using hl a ha
    rw [empty]
    exact List.Perm.refl _
  | cons k keys ih =>
    obtain ⟨hk, hn⟩ := List.nodup_cons.mp hn
    let others := l.filter fun a => ! decide (key a = k)
    have covered : ∀ a ∈ others, key a ∈ keys := by
      intro a ha
      obtain ⟨hal, hak⟩ := List.mem_filter.mp ha
      exact (List.mem_cons.mp (hl a hal)).resolve_left (by simpa using hak)
    -- a member with a later key is not among those of the first
    have parts : keys.flatMap (fun j => l.filter fun a => key a = j) =
        keys.flatMap (fun j => others.filter fun a => key a = j) := by
      refine List.flatMap_congr fun j hj => ?_
      rw [List.filter_filter]
      refine List.filter_congr fun a _ => ?_
      have apart : j ≠ k := fun heq => hk (heq ▸ hj)
      by_cases ha : key a = j
      · simp [ha, apart]
      · simp [ha]
    rw [List.flatMap_cons, parts]
    exact ((ih hn covered).append_left _).trans (List.filter_append_perm _ l)

/-- What supplies an edge of the trace is sorted. -/
theorem Traversed.supplier_mem (h : g.Traversed ts s T) {x : Hop} (hx : x ∈ T) :
    g.hash x.2.supply.node ∈ s.nodes.map g.hash := by
  obtain ⟨hi, he⟩ := h.mem_iff.mp hx
  obtain ⟨pre, post, hsplit⟩ := List.append_of_mem hi
  have front := sort_ordered h.sort pre x.1 post hsplit x.2 he
  rw [hsplit, List.map_append]
  exact List.mem_append_left _ front

/-- Only suppliers of edges are recorded. -/
theorem exists_of_mem_keys_foldl {h : Digest}
    (hh : h ∈ Entries.keys (T.foldl g.follow .empty).outgoing) :
    ∃ x ∈ T, g.hash x.2.supply.node = h := by
  induction T using List.reverseRecOn with
  | nil => exact absurd hh List.not_mem_nil
  | append_singleton T x ih =>
    rw [List.foldl_append, List.foldl_cons, List.foldl_nil, follow, Sorted.record,
      Entries.keys_modify] at hh
    have old_or_new : h ∈ Entries.keys (T.foldl g.follow .empty).outgoing ∨
        h = g.hash x.2.supply.node := by
      split at hh
      · exact .inl hh
      · simpa using hh
    rcases old_or_new with old | new
    · obtain ⟨y, hy, heq⟩ := ih old
      exact ⟨y, List.mem_append_left _ hy, heq⟩
    · exact ⟨x, by simp, new.symm⟩

/-- **The record is the inverse of the incoming edges**: over all sorted nodes, the edges that leave
are the edges that enter, each as often; and every node that has a record is sorted. -/
theorem leaving_perm_entering (h : g.sort ts = .ok s) :
    (s.nodes.flatMap (g.leaving s)).Perm (s.nodes.flatMap g.entering) ∧
      ∀ k ∈ Entries.keys s.outgoing, ∃ i ∈ s.nodes, g.hash i = k := by
  obtain ⟨T, ht⟩ := exists_traversed h
  constructor
  · have covered : ∀ c ∈ T.map g.connection, c.supplier ∈ s.nodes.map g.hash := by
      intro c hc
      obtain ⟨x, hx, rfl⟩ := List.mem_map.mp hc
      exact ht.supplier_mem hx
    have left : (s.nodes.flatMap (g.leaving s)).Perm (T.map g.connection) := by
      have fibres := perm_fibres Connection.supplier (sort_nodup h) covered
      rw [List.flatMap_map] at fibres
      exact (List.Perm.flatMap_left s.nodes fun i _ => ht.leaving_perm i).trans fibres
    have right : (T.map g.connection).Perm (s.nodes.flatMap g.entering) := by
      have edges := ht.perm.map g.connection
      rw [List.map_flatMap] at edges
      refine edges.trans (List.Perm.of_eq (List.flatMap_congr fun i _ => ?_))
      simp only [hops, entering, List.map_map, Function.comp_def, connection]
    exact left.trans right
  · intro k hk
    rw [ht.run.outgoing_eq] at hk
    obtain ⟨x, hx, rfl⟩ := exists_of_mem_keys_foldl hk
    exact List.mem_map.mp (ht.supplier_mem hx)

/-- The sample, sorted: the source has four consumers, one of them through its second copy. -/
def sampleSorted : Sorted where
  nodes := [0, 2, 3, 4, 5]
  outgoing := [
    (0xdf5c390c387da028, [("", [⟨4, "0", none⟩])]),
    (0x095e3a2f6b9b8969, [("1", [⟨3, "0", none⟩]), ("0", [⟨3, "1", none⟩])]),
    (0x0df44f9c702bb1a4,
      [("", [⟨2, "", some .video⟩, ⟨3, "2", none⟩, ⟨4, "1", some .audio⟩, ⟨5, "", none⟩])])]

theorem sample_sort : sample.sort [4, 2, 5, 4] = .ok sampleSorted := by
  rw [sample_eq]
  cbv

theorem leaving_perm_entering_sample :
    sample.sort [4, 2, 5, 4] = .ok sampleSorted ∧
    (sampleSorted.nodes.flatMap (sample.leaving sampleSorted)).Perm
      (sampleSorted.nodes.flatMap sample.entering) ∧
    ∀ k ∈ Entries.keys sampleSorted.outgoing, ∃ i ∈ sampleSorted.nodes, sample.hash i = k :=
  ⟨sample_sort, leaving_perm_entering sample_sort⟩

end Graph

end FilterGraph
