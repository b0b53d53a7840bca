import FilterGraph.Graph.Order
import Mathlib.Data.List.Induction
import Mathlib.Data.List.Nodup
import Mathlib.Logic.Relation

/-!
# What stands above the terminals

The vocabulary of the statements about whole graphs.

* `Graph.Above`: the nodes that a list of terminals is made from, the terminals included;
* `Graph.Link` and `Graph.Cyclic`: the feeding relation between numbers, and a cycle of it. Nodes
  are told apart by their numbers, so a cycle may leave a node and come back to another node of
  the same number;
* `Graph.SameNode`: two places hold the same node, that is, the same content and the same edges, up
  to the order of options and of edges, which the number does not see either;
* `Graph.Coherent`, `Graph.Collisionless`: above the terminals, nodes of one number are fed alike,
  and are the same node;
* `mem_of_mem_distinct`, `exists_mem_distinct`, `nodup_distinct`: of the places of one number, one is
  kept.
-/

namespace FilterGraph

/-- Parameters that differ at most in the order of their options. -/
def Params.SameAs : Params → Params → Prop
  | .options a, .options b => a.Perm b
  | .literals a, .literals b => a = b
  | _, _ => False

@[simp] theorem Params.sameAs_refl (p : Params) : p.SameAs p := by
  cases p with
  | options entries => exact List.Perm.refl _
  | literals args => rfl

namespace Graph

/-! ## 1. Reachability -/

/-- The terminals, and every node that feeds a node above them. -/
inductive Above (g : Graph) (ts : List NodeId) : NodeId → Prop where
  | terminal {t : NodeId} (h : t ∈ ts) : Above g ts t
  | feeds {i : NodeId} {e : Incoming} (h : Above g ts i) (he : e ∈ g.incoming i) :
      Above g ts e.supply.node

/-- Number `k` feeds number `h`: above the terminals, a node of the one enters a node of the
other. -/
def Link (g : Graph) (ts : List NodeId) (k h : Digest) : Prop :=
  ∃ i e, g.Above ts i ∧ e ∈ g.incoming i ∧ g.hash i = h ∧ g.hash e.supply.node = k

/-- Some number above the terminals feeds itself, directly or through others. -/
def Cyclic (g : Graph) (ts : List NodeId) : Prop :=
  ∃ h, Relation.TransGen (g.Link ts) h h

variable {g : Graph} {ts us : List NodeId}

theorem Above.mono (hsub : ∀ t ∈ ts, t ∈ us) {i : NodeId} (h : g.Above ts i) : g.Above us i := by
  induction h with
  | terminal ht => exact .terminal (hsub _ ht)
  | feeds _ he ih => exact .feeds ih he

/-- A set of places that holds the terminals and what feeds its members holds all above. -/
theorem Above.mem_of_closed {l : List NodeId} (hts : ∀ t ∈ ts, t ∈ l)
    (hl : ∀ i ∈ l, ∀ e ∈ g.incoming i, e.supply.node ∈ l) {i : NodeId} (h : g.Above ts i) :
    i ∈ l := by
  induction h with
  | terminal ht => exact hts _ ht
  | feeds _ he ih => exact hl _ ih _ he

theorem Link.mono (hsub : ∀ t ∈ ts, t ∈ us) {k h : Digest} (hl : g.Link ts k h) :
    g.Link us k h := by
  obtain ⟨i, e, hi, he, hh, hk⟩ := hl
  exact ⟨i, e, hi.mono hsub, he, hh, hk⟩

theorem Cyclic.mono (hsub : ∀ t ∈ ts, t ∈ us) (h : g.Cyclic ts) : g.Cyclic us := by
  obtain ⟨d, hd⟩ := h
  have le : g.Link ts ≤ g.Link us := fun _ _ => Link.mono hsub
  exact ⟨d, Relation.TransGen.mono le d d hd⟩

/-- **A rank that falls along the edges rules out cycles.** -/
theorem not_cyclic_of_rank (rank : Digest → Nat)
    (h : ∀ i, g.Above ts i → ∀ e ∈ g.incoming i,
      rank (g.hash e.supply.node) < rank (g.hash i)) : ¬ g.Cyclic ts := by
  have falls : ∀ k h, Relation.TransGen (g.Link ts) k h → rank k < rank h := by
    intro k h' hk
    induction hk with
    | single hl =>
      obtain ⟨i, e, hi, he, rfl, rfl⟩ := hl
      exact h i hi e he
    | tail _ hl ih =>
      obtain ⟨i, e, hi, he, rfl, rfl⟩ := hl
      exact Nat.lt_trans ih (h i hi e he)
  rintro ⟨d, hd⟩
  exact Nat.lt_irrefl _ (falls d d hd)

/-! ## 2. One node for each number -/

/-- Two places hold the same node: the same content, and edges with the same labels and
components from suppliers of the same numbers, in any order. -/
structure SameNode (g : Graph) (i j : NodeId) : Prop where
  kind : (g.node i).kind = (g.node j).kind
  name : (g.node i).name = (g.node j).name
  params : (g.node i).params.SameAs (g.node j).params
  path : (g.node i).path = (g.node j).path
  fed : ((g.incoming i).map g.term).Perm ((g.incoming j).map g.term)

/-- Above the terminals, nodes of one number are fed alike. -/
def Coherent (g : Graph) (ts : List NodeId) : Prop :=
  ∀ i j, g.Above ts i → g.Above ts j → g.hash i = g.hash j →
    ((g.incoming i).map g.term).Perm ((g.incoming j).map g.term)

/-- Above the terminals, nodes of one number are the same node. -/
def Collisionless (g : Graph) (ts : List NodeId) : Prop :=
  ∀ i j, g.Above ts i → g.Above ts j → g.hash i = g.hash j → g.SameNode i j

theorem Collisionless.coherent (h : g.Collisionless ts) : g.Coherent ts :=
  fun i j hi hj hij => (h i j hi hj hij).fed

/-- Equal nodes at two places are the same node. -/
theorem sameNode_of_node_eq {i j : NodeId} (h : g.node i = g.node j) : g.SameNode i j := by
  have fed : g.incoming i = g.incoming j := congrArg Node.incoming h
  refine ⟨congrArg Node.kind h, congrArg Node.name h, ?_, congrArg Node.path h, ?_⟩
  · rw [h]
    exact Params.sameAs_refl _
  · rw [fed]

/-- An edge has its counterpart at every node of the same number. -/
theorem Coherent.counterpart (hc : g.Coherent ts) {i j : NodeId} (hi : g.Above ts i)
    (hj : g.Above ts j) (hij : g.hash i = g.hash j) {e : Incoming} (he : e ∈ g.incoming i) :
    ∃ e' ∈ g.incoming j, g.term e' = g.term e := by
  have mem : g.term e ∈ (g.incoming j).map g.term :=
    (hc i j hi hj hij).subset (List.mem_map_of_mem he)
  exact List.mem_map.mp mem

/-! ## 3. Places that are kept -/

section Distinct

variable {ids : List NodeId} {i : NodeId}

/-- A place is kept unless one of its number is. -/
theorem distinct_append_singleton (g : Graph) (ids : List NodeId) (i : NodeId) :
    g.distinct (ids ++ [i]) =
      if g.holds (g.distinct ids) (g.hash i) then g.distinct ids else g.distinct ids ++ [i] := by
  rw [distinct, List.foldl_append]
  rfl

/-- What is kept grows with the list. -/
theorem mem_of_mem_distinct (h : i ∈ g.distinct ids) : i ∈ ids := by
  induction ids using List.reverseRecOn with
  | nil => exact h
  | append_singleton ids a ih =>
    rw [distinct_append_singleton] at h
    split at h
    · exact List.mem_append_left _ (ih h)
    · exact (List.mem_append.mp h).elim (fun h => List.mem_append_left _ (ih h))
        (List.mem_append_right _)

/-- Of every number one place is kept. -/
theorem exists_mem_distinct (hi : i ∈ ids) : ∃ j ∈ g.distinct ids, g.hash j = g.hash i := by
  induction ids using List.reverseRecOn with
  | nil => exact absurd hi List.not_mem_nil
  | append_singleton ids a ih =>
    rw [distinct_append_singleton]
    rcases List.mem_append.mp hi with hi | hi
    · obtain ⟨j, hj, hash⟩ := ih hi
      split
      · exact ⟨j, hj, hash⟩
      · exact ⟨j, List.mem_append_left _ hj, hash⟩
    · rw [List.mem_singleton.mp hi]
      split
      · rename_i kept
        exact List.mem_map.mp (holds_iff.mp kept)
      · exact ⟨a, List.mem_append_right _ (List.mem_singleton_self a), rfl⟩

/-- No two places of one number are kept. -/
theorem nodup_distinct (g : Graph) (ids : List NodeId) : ((g.distinct ids).map g.hash).Nodup := by
  induction ids using List.reverseRecOn with
  | nil => exact List.nodup_nil
  | append_singleton ids a ih =>
    rw [distinct_append_singleton]
    split
    · exact ih
    · rename_i fresh
      rw [holds_iff] at fresh
      rw [List.map_append, List.nodup_append]
      refine ⟨ih, List.nodup_singleton _, fun d hd e he heq => fresh ?_⟩
      rw [← List.mem_singleton.mp he, ← heq]
      exact hd

end Distinct

end Graph

end FilterGraph
