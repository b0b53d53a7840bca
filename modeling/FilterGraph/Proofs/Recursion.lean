import FilterGraph.Graph.Order

/-!
# The sort as a recursion

The order in which `Graph.sort` visits nodes, said without a path of half-followed edges: to visit
a node is to record and visit what feeds it, edge by edge, and then to finish it.

* `Graph.descend`, `Graph.descendAll`: the recursive visit of a node and of the suppliers of a node;
* `Graph.sortByDescent`: the recursive visit of all terminals;
* `walk_cons`: a walk is the rest of the innermost visit, then the walk along the rest of the path;
* **`sort_eq_sortByDescent`**: both give the same nodes in the same order, the same record in the
  same order, and fail at the same node.

The two do not go in step: the walk looks at the marks of a supplier before it enters it, the
recursion when it has entered it. They meet again when a visit ends.
-/

namespace FilterGraph.Graph

/-! ## 1. The recursion -/

/-- How many numbers of the graph belong to no node in progress. -/
def unopened (g : Graph) (inProgress : List NodeId) : Nat :=
  g.hashes.countP fun h => ! g.holds inProgress h

theorem unopened_cons_lt {g : Graph} {inProgress : List NodeId} {n : NodeId}
    (h : ¬ g.holds inProgress (g.hash n) = true) :
    g.unopened (n :: inProgress) < g.unopened inProgress :=
  countP_lt_countP
    (fun x hx => by
      simp only [holds_cons, Bool.not_eq_true', Bool.or_eq_false_iff] at hx ⊢
      exact hx.2)
    (g.hash_mem_hashes n) (by simp) (by simpa using h)

mutual

/-- Visits a node: nothing is left to do for one that is done, and one that is in progress closes a
cycle; any other is in progress while its suppliers are visited, and then it is done. A node is in
progress as long as its own visit lasts, so a visit tells the visits that it makes. -/
def descend (g : Graph) (inProgress : List NodeId) (s : Sorted) (n : NodeId) :
    Except CycleFound Sorted :=
  if g.holds s.nodes (g.hash n) then .ok s
  else if _h : g.holds inProgress (g.hash n) then .error ⟨n⟩
  else (g.descendAll (n :: inProgress) s n (g.incoming n)).map (·.finish n)
termination_by (g.unopened inProgress, 0)
decreasing_by exact Prod.Lex.left _ _ (unopened_cons_lt _h)

/-- Records edges of a node at the nodes that supply them, and visits each of these nodes after its
edge is recorded. -/
def descendAll (g : Graph) (inProgress : List NodeId) (s : Sorted) (n : NodeId) :
    List Incoming → Except CycleFound Sorted
  | [] => .ok s
  | e :: es =>
    let u := e.supply.node
    let s := s.record (g.hash u) e.supply.label ⟨n, e.label, e.supply.selector⟩
    match g.descend inProgress s u with
    | .error c => .error c
    | .ok s => g.descendAll inProgress s n es
termination_by es => (g.unopened inProgress, es.length + 1)

end

/-- Visits the terminals one after the other; none is in progress between them. -/
def sortByDescent (g : Graph) (terminals : List NodeId) : Except CycleFound Sorted :=
  terminals.foldlM (g.descend []) .empty

/-! ## 2. The three cases of a visit -/

variable {g : Graph} {inProgress : List NodeId} {s : Sorted} {n : NodeId}

theorem descend_of_done (h : g.holds s.nodes (g.hash n) = true) :
    g.descend inProgress s n = .ok s := by
  rw [descend, if_pos h]

theorem descend_of_inProgress (h : ¬ g.holds s.nodes (g.hash n) = true)
    (hp : g.holds inProgress (g.hash n) = true) : g.descend inProgress s n = .error ⟨n⟩ := by
  rw [descend, if_neg h, dif_pos hp]

theorem descend_of_new (h : ¬ g.holds s.nodes (g.hash n) = true)
    (hp : ¬ g.holds inProgress (g.hash n) = true) :
    g.descend inProgress s n =
      (g.descendAll (n :: inProgress) s n (g.incoming n)).map (·.finish n) := by
  rw [descend, if_neg h, dif_neg hp]

theorem descendAll_cons (e : Incoming) (es : List Incoming) :
    g.descendAll inProgress s n (e :: es) =
      g.descend inProgress (s.record (g.hash e.supply.node) e.supply.label
        ⟨n, e.label, e.supply.selector⟩) e.supply.node >>=
        fun s' => g.descendAll inProgress s' n es := by
  rw [descendAll]
  split
  · rename_i c h
    rw [h]
    rfl
  · rename_i s' h
    rw [h]
    rfl

/-! ## 3. The walk is the recursion -/

/-- **A walk ends the innermost visit and goes on along the rest of its path.** The induction
follows the recursion: an edge is taken off, or a node is entered that was not in progress. -/
theorem walk_cons (g : Graph) (path : Trail) (s : Sorted) (i : NodeId) (es : List Incoming) :
    g.walk ((i, es) :: path) s =
      g.descendAll (i :: entered path) s i es >>= fun s' => g.walk path (s'.finish i) := by
  match es with
  | [] =>
    rw [walk, descendAll]
    rfl
  | e :: es =>
    rw [walk, descendAll_cons]
    let u := e.supply.node
    let recorded := s.record (g.hash u) e.supply.label ⟨i, e.label, e.supply.selector⟩
    by_cases done : g.holds recorded.nodes (g.hash u) = true
    · rw [descend_of_done done]
      exact (if_pos done).trans (walk_cons g path recorded i es)
    · refine (if_neg done).trans ?_
      by_cases onPath : g.holds (i :: entered path) (g.hash u) = true
      · rw [descend_of_inProgress done onPath]
        exact if_pos onPath
      · -- the supplier is visited inside, and then the rest of the edges is followed
        have fewer := unopened_cons_lt onPath
        have inner := walk_cons g ((i, es) :: path) recorded u (g.incoming u)
        have rest := fun s' => walk_cons g path s' i es
        rw [descend_of_new done onPath]
        refine (if_neg onPath).trans (inner.trans ?_)
        rw [entered_cons]
        simp only [rest]
        cases g.descendAll (u :: i :: entered path) recorded u (g.incoming u) with
        | error c => rfl
        | ok s' => rfl
termination_by (g.unopened (i :: entered path), es.length)

theorem visit_eq_descend (s : Sorted) (t : NodeId) : g.visit s t = g.descend [] s t := by
  by_cases done : g.holds s.nodes (g.hash t) = true
  · rw [descend_of_done done, visit, if_pos done]
  · have free : ¬ g.holds [] (g.hash t) = true := Bool.false_ne_true
    rw [descend_of_new done free, visit, if_neg done, walk_cons, entered_nil]
    cases g.descendAll [t] s t (g.incoming t) with
    | error c => rfl
    | ok s' =>
      change g.walk [] (s'.finish t) = .ok (s'.finish t)
      rw [walk]

/-- **The sort is the recursive visit of the terminals**: the nodes, the record with the order of
its nodes, labels and consumers, and the node at which it fails. -/
theorem sort_eq_sortByDescent (g : Graph) (ts : List NodeId) :
    g.sort ts = g.sortByDescent ts := by
  have same : g.visit = g.descend [] := funext fun s => funext fun t => visit_eq_descend s t
  rw [sort, sortByDescent, same]

end FilterGraph.Graph
