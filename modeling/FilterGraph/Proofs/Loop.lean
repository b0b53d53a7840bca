import FilterGraph.Proofs.Sorting
import Mathlib.Algebra.BigOperators.Group.List.Basic
import Mathlib.Algebra.Order.BigOperators.Group.List
import Mathlib.Algebra.Order.Ring.Nat

/-!
# The sort as a loop, turn by turn

`Graph.sort` follows one edge or finishes one node at a time. Here a turn of the loop is a function
without recursion, so that a statement about the number of turns is a statement about the loop.

* `Stage`: in front of a turn, or stopped with an outcome; `Graph.turn` makes one turn;
* `outcome_turn`: no turn changes what the loop comes to;
* `turnsLeft_turn_lt`: every turn that is made lowers the number of turns left, whatever the graph
  looks like;
* `loop_ends`: the loop stops with the outcome of `Graph.sort`, after at most one turn for each
  terminal, each node and each edge, and two more;
* **`cycle_detection_is_exact`**: the loop ends, fails exactly at cycles, and names a node on one.
-/

namespace FilterGraph.Graph

/-! ## 1. Turns -/

/-- A state of the loop: the terminals to come, the path and what is sorted, or the outcome. -/
inductive Stage where
  | running (todo : List NodeId) (path : Trail) (s : Sorted)
  | stopped (r : Except CycleFound Sorted)

/-- One turn of the loop: it takes up the next terminal, finishes the innermost node of the path,
or follows the next edge of this node. -/
def turn (g : Graph) : Stage → Stage
  | .running [] [] s => .stopped (.ok s)
  | .running (t :: todo) [] s =>
    if g.holds s.nodes (g.hash t) then .running todo [] s
    else .running todo [(t, g.incoming t)] s
  | .running todo ((i, []) :: path) s => .running todo path (s.finish i)
  | .running todo ((i, e :: es) :: path) s =>
    let u := e.supply.node
    if g.holds s.nodes (g.hash u) then .running todo ((i, es) :: path) (g.follow s (i, e))
    else if g.holds (i :: entered path) (g.hash u) then .stopped (.error ⟨u⟩)
    else .running todo ((u, g.incoming u) :: (i, es) :: path) (g.follow s (i, e))
  | .stopped r => .stopped r

/-- What a state comes to: the rest of the walk, then the terminals to come. -/
def outcomeOf (g : Graph) : Stage → Except CycleFound Sorted
  | .running todo path s => g.walk path s >>= todo.foldlM g.visit
  | .stopped r => r

variable {g : Graph} {ts : List NodeId}

/-- **No turn changes what the loop comes to.** -/
theorem outcome_turn (st : Stage) : g.outcomeOf (g.turn st) = g.outcomeOf st := by
  match st with
  | .running [] [] s =>
    simp only [turn, outcomeOf, walk]
    rfl
  | .running (t :: todo) [] s =>
    have unfolded : g.outcomeOf (.running (t :: todo) [] s) =
        g.visit s t >>= todo.foldlM g.visit := by
      simp only [outcomeOf, walk]
      rfl
    rw [unfolded, turn, visit]
    split
    · simp only [outcomeOf, walk]
    · rfl
  | .running todo ((i, []) :: path) s => simp only [turn, outcomeOf, walk]
  | .running todo ((i, e :: es) :: path) s =>
    simp only [turn]
    rw [outcomeOf, walk]
    split
    · rfl
    · split
      · rfl
      · rfl
  | .stopped r => rfl

/-! ## 2. How many turns are left -/

/-- The nodes of a graph, with the empty node that stands at all other places. -/
def nodeList (g : Graph) : List Node := default :: g.nodes.toList

theorem node_mem_nodeList (g : Graph) (i : NodeId) : g.node i ∈ g.nodeList := by
  unfold node nodeList
  by_cases h : i < g.nodes.size
  · rw [Array.getD, dif_pos h]
    exact List.mem_cons_of_mem _ (Array.getElem_mem_toList h)
  · rw [Array.getD, dif_neg h]
    exact List.mem_cons_self

/-- The turns that a node takes: one for each of its edges, and one to finish it. -/
def nodeTurns (n : Node) : Nat := n.incoming.length + 1

/-- The turns of the nodes that the walk has not met. -/
def unmetTurns (g : Graph) (path : Trail) (s : Sorted) : Nat :=
  (g.nodeList.map fun n => if g.met path s n.hash then 0 else nodeTurns n).sum

/-- A bound for the number of turns that a state is away from the end. -/
def turnsLeft (g : Graph) : Stage → Nat
  | .running todo path s => todo.length + pending path + g.unmetTurns path s + 1
  | .stopped _ => 0

theorem met_mono {i : NodeId} {es : List Incoming} {path : Trail} {s : Sorted} {h : Digest}
    (hm : g.met path s h = true) : g.met ((i, es) :: path) s h = true := by
  simp only [met, entered_cons, holds_cons, Bool.or_eq_true] at hm ⊢
  exact hm.imp_right .inr

theorem unmetTurns_finish (i : NodeId) (path : Trail) (s : Sorted) :
    g.unmetTurns path (s.finish i) = g.unmetTurns ((i, []) :: path) s := by
  have same : ∀ h, g.met path (s.finish i) h = g.met ((i, []) :: path) s h := by
    intro h
    simp [met, Bool.or_assoc, holds]
  simp only [unmetTurns, same]

theorem unmetTurns_follow (i : NodeId) (es fs : List Incoming) (path : Trail) (s : Sorted)
    (x : Hop) :
    g.unmetTurns ((i, es) :: path) (g.follow s x) = g.unmetTurns ((i, fs) :: path) s := rfl

/-- **Entering a node takes its turns out of those of the nodes not met.** -/
theorem unmetTurns_enter {u : NodeId} (es : List Incoming) {path : Trail} {s : Sorted}
    (h : g.met path s (g.hash u) = false) :
    g.unmetTurns ((u, es) :: path) s + nodeTurns (g.node u) ≤ g.unmetTurns path s := by
  have mem := g.node_mem_nodeList u
  have before : ¬ g.met path s (g.node u).hash = true := by
    rw [Bool.not_eq_true]
    exact h
  have after : g.met ((u, es) :: path) s (g.node u).hash = true := by
    simp [met, hash]
  have others : ((g.nodeList.erase (g.node u)).map fun n =>
        if g.met ((u, es) :: path) s n.hash then 0 else nodeTurns n).sum ≤
      ((g.nodeList.erase (g.node u)).map fun n =>
        if g.met path s n.hash then 0 else nodeTurns n).sum := by
    refine List.sum_le_sum fun n _ => ?_
    split
    · exact Nat.zero_le _
    · rename_i hn
      rw [if_neg fun hm => hn (met_mono hm)]
  unfold unmetTurns
  rw [← List.sum_map_erase _ mem, ← List.sum_map_erase _ mem, if_pos after, if_neg before]
  omega

/-- **Every turn lowers the number of turns left.** -/
theorem turnsLeft_turn_lt (todo : List NodeId) (path : Trail) (s : Sorted) :
    g.turnsLeft (g.turn (.running todo path s)) < g.turnsLeft (.running todo path s) := by
  match todo, path with
  | [], [] => exact Nat.succ_pos _
  | t :: todo, [] =>
    simp only [turn]
    split
    · simp only [turnsLeft, List.length_cons]
      omega
    · rename_i ht
      have unmet : g.met [] s (g.hash t) = false := by
        rw [met, Bool.eq_false_iff.mpr ht]
        rfl
      have enter := g.unmetTurns_enter (g.incoming t) unmet
      have turns : nodeTurns (g.node t) = (g.incoming t).length + 1 := rfl
      simp only [turnsLeft, List.length_cons, pending, List.map_cons, List.map_nil,
        List.foldr_cons, List.foldr_nil]
      omega
  | todo, (i, []) :: path =>
    simp only [turn, turnsLeft, unmetTurns_finish, pending, List.map_cons, List.foldr_cons,
      List.length_nil]
    omega
  | todo, (i, e :: es) :: path =>
    simp only [turn]
    split
    · rw [turnsLeft, turnsLeft, unmetTurns_follow i es (e :: es)]
      simp only [pending, List.map_cons, List.foldr_cons, List.length_cons]
      omega
    · split
      · exact Nat.succ_pos _
      · rename_i hu hp
        have unmet : g.met ((i, es) :: path) (g.follow s (i, e)) (g.hash e.supply.node) = false := by
          rw [met, follow_nodes, Bool.eq_false_iff.mpr hu, entered_cons, Bool.eq_false_iff.mpr hp]
          rfl
        have enter := g.unmetTurns_enter (g.incoming e.supply.node) unmet
        have turns : nodeTurns (g.node e.supply.node) = (g.incoming e.supply.node).length + 1 := rfl
        rw [unmetTurns_follow i es (e :: es)] at enter
        simp only [turnsLeft, pending, List.map_cons, List.foldr_cons, List.length_cons]
        omega

/-! ## 3. The end -/

/-- **A state stops with its outcome** after as many turns as are left, and stays there. -/
theorem iterate_turn (n : Nat) (st : Stage) (h : g.turnsLeft st ≤ n) :
    g.turn^[n] st = .stopped (g.outcomeOf st) := by
  induction n generalizing st with
  | zero =>
    cases st with
    | running todo path s => exact absurd h (Nat.not_succ_le_zero _)
    | stopped r => rfl
  | succ n ih =>
    rw [Function.iterate_succ_apply, ← outcome_turn st]
    cases st with
    | running todo path s => exact ih _ (by have := g.turnsLeft_turn_lt todo path s; omega)
    | stopped r => exact ih _ (Nat.zero_le _)

/-- **The loop ends**, on every graph: one turn for each terminal, each node and each edge, one
for a place without a node, and the last. -/
theorem loop_ends (g : Graph) (ts : List NodeId) :
    ∃ n ≤ ts.length + (g.nodes.toList.map nodeTurns).sum + 2,
      g.turn^[n] (.running ts [] .empty) = .stopped (g.sort ts) := by
  have fresh : g.unmetTurns [] .empty = 1 + (g.nodes.toList.map nodeTurns).sum := by
    simp [unmetTurns, nodeList, met, holds, Sorted.empty]
    rfl
  have outcome : g.outcomeOf (.running ts [] .empty) = g.sort ts := by
    rw [outcomeOf, walk, sort]
    rfl
  refine ⟨g.turnsLeft (.running ts [] .empty), ?_, ?_⟩
  · rw [turnsLeft, fresh]
    simp only [pending, List.map_nil, List.foldr_nil]
    omega
  · rw [iterate_turn _ _ (Nat.le_refl _), outcome]

/-- The node that a sort names is above the terminals, and its number feeds itself. -/
theorem onCycle_of_sort_error {c : CycleFound} (h : g.sort ts = .error c) :
    g.Above ts c.node ∧ Relation.TransGen (g.Link ts) (g.hash c.node) (g.hash c.node) := by
  obtain ⟨us, hpre, hb⟩ := sort_error h
  have sub : ∀ t ∈ us, t ∈ ts := fun t ht => hpre.subset ht
  have le : g.Link us ≤ g.Link ts := fun _ _ => Link.mono sub
  obtain ⟨path, s, T, i, e, es, hr, hu, -⟩ := hb.state
  have above : g.Above us i := hr.above i (by simp)
  exact ⟨hu ▸ (Above.feeds above hr.mem_incoming).mono sub,
    Relation.TransGen.mono le _ _ hb.linked⟩

/-- **Cycle detection is exact and the sort always ends.** The loop stops with the outcome of the
sort; this is a failure exactly when some number above the terminals feeds itself, directly or
through others; the node that is named then is above the terminals and feeds itself; and sharing
without a cycle is no reason to fail. -/
theorem cycle_detection_is_exact (hc : g.Coherent ts) :
    (∃ n ≤ ts.length + (g.nodes.toList.map nodeTurns).sum + 2,
      g.turn^[n] (.running ts [] .empty) = .stopped (g.sort ts)) ∧
    ((∃ c, g.sort ts = .error c) ↔ g.Cyclic ts) ∧
    (∀ c, g.sort ts = .error c →
      g.Above ts c.node ∧ Relation.TransGen (g.Link ts) (g.hash c.node) (g.hash c.node)) ∧
    (¬ g.Cyclic ts → ∃ s, g.sort ts = .ok s) := by
  refine ⟨loop_ends g ts, sort_eq_error_iff_cyclic hc, fun c h => onCycle_of_sort_error h, ?_⟩
  intro ha
  cases h : g.sort ts with
  | error c => exact absurd (cyclic_of_sort_error h) ha
  | ok s => exact ⟨s, rfl⟩

/-- The sample when the filter that joins the outputs of the other comes back to it. -/
def looped : Graph := sample.feedBack 2 ⟨"loop", ⟨3, "", none⟩⟩

theorem looped_coherent : looped.Coherent [0, 4] := by
  have all : ∀ i ∈ samplePlaces, ∀ j ∈ samplePlaces, looped.hash i = looped.hash j →
      looped.node i = looped.node j := by
    rw [looped, sample_eq]
    decide
  have closed : ∀ i ∈ samplePlaces, ∀ e ∈ looped.incoming i, e.supply.node ∈ samplePlaces := by
    rw [looped, sample_eq]
    decide
  have places : ∀ i, looped.Above [0, 4] i → i ∈ samplePlaces :=
    fun i hi => hi.mem_of_closed (by decide) closed
  intro i j hi hj hij
  exact (sameNode_of_node_eq (all i (places i hi) j (places j hj) hij)).fed

theorem cycle_detection_is_exact_looped :
    looped.Coherent [0, 4] ∧
    (∃ n ≤ 20, looped.turn^[n] (.running [0, 4] [] .empty) = .stopped (looped.sort [0, 4])) ∧
    ((∃ c, looped.sort [0, 4] = .error c) ↔ looped.Cyclic [0, 4]) ∧
    (∀ c, looped.sort [0, 4] = .error c → looped.Above [0, 4] c.node ∧
      Relation.TransGen (looped.Link [0, 4]) (looped.hash c.node) (looped.hash c.node)) ∧
    (¬ looped.Cyclic [0, 4] → ∃ s, looped.sort [0, 4] = .ok s) := by
  have bound : [0, 4].length + (looped.nodes.toList.map nodeTurns).sum + 2 = 20 := by
    rw [looped, sample_eq]
    rfl
  have detection := cycle_detection_is_exact looped_coherent
  rw [bound] at detection
  exact ⟨looped_coherent, detection⟩

/-- The loop is found where it comes back, behind the shared filter. -/
example : looped.sort [0, 4] = .error ⟨3⟩ := by
  rw [looped, sample_eq]
  cbv

end FilterGraph.Graph
