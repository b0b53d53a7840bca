import FilterGraph.Command.Compile
import FilterGraph.Proofs.Sorting

/-!
# The paths that a command writes

The outputs for which a run prepares directories are those of the sinks above the terminals.

* `Graph.WritesTo`: a sink with a path that is not empty;
* `Graph.Written`: the sorted sinks of this kind, in the order of the sort, with their paths;
* **`outputPaths_eq_ok_iff`**: the paths that are computed are the paths of these sinks.
-/

namespace FilterGraph.Graph

/-- A node is a sink, and its path is `p` and not empty. -/
structure WritesTo (g : Graph) (i : NodeId) (p : String) : Prop where
  kind : (g.node i).kind = .sink
  path : (g.node i).path = some p
  ne_empty : p ≠ ""

/-- The sinks behind some terminals that have a path, and their paths. -/
structure Written (g : Graph) (ts : List NodeId) (s : Sorted) (sinks : List NodeId)
    (paths : List String) : Prop where
  sorted : g.sort ts = .ok s
  /-- The sinks stand in the order of the sort. -/
  order : sinks.Sublist s.nodes
  /-- They are all sorted sinks that have a path. -/
  exact : ∀ i, i ∈ sinks ↔ i ∈ s.nodes ∧ ∃ p, g.WritesTo i p
  /-- Each has its path. -/
  each : List.Forall₂ g.WritesTo sinks paths
  above : ∀ i ∈ sinks, g.Above ts i
  /-- No sink above the terminals is left out, unless another node has its number. -/
  all : g.Collisionless ts → ∀ i p, g.Above ts i → g.WritesTo i p →
    ∃ j ∈ sinks, g.hash j = g.hash i ∧ g.WritesTo j p

/-- The outputs behind some streams write these paths. -/
def Writes (g : Graph) (streams : List Stream) (paths : List String) : Prop :=
  ∃ s sinks, g.Written (g.terminals streams) s sinks paths

variable {g : Graph} {ts : List NodeId} {s : Sorted}

/-- The path that a node writes. -/
def written? (g : Graph) (i : NodeId) : Option String :=
  if (g.node i).kind = .sink then (g.node i).path.filter (! ·.isEmpty) else none

theorem written?_eq_some_iff {i : NodeId} {p : String} :
    g.written? i = some p ↔ g.WritesTo i p := by
  unfold written?
  constructor
  · intro h
    split at h
    · rename_i kind
      obtain ⟨path, ne⟩ := Option.filter_eq_some_iff.mp h
      exact ⟨kind, path, by simpa using ne⟩
    · cases h
  · rintro ⟨kind, path, ne⟩
    simp [kind, path, Option.filter, ne]

/-- What the sinks of a row of nodes write. -/
theorem filterMap_written? (g : Graph) (l : List NodeId) :
    ((l.filter fun i => (g.node i).kind = .sink).filterMap fun i =>
      (g.node i).path.filter (! ·.isEmpty)) = l.filterMap g.written? := by
  rw [List.filterMap_filter]
  refine List.filterMap_congr fun i _ => ?_
  unfold written?
  by_cases h : (g.node i).kind = .sink <;> simp [h]

theorem outputPaths_eq (g : Graph) (streams : List Stream) : g.outputPaths streams =
    (g.sorted (g.terminals streams)).map fun s => s.nodes.filterMap g.written? := by
  unfold outputPaths sinks ofKind
  simp only [filterMap_written?]

/-- The nodes of a row that write, each with its path. -/
theorem forall₂_written? (g : Graph) (l : List NodeId) :
    List.Forall₂ g.WritesTo (l.filter fun i => (g.written? i).isSome) (l.filterMap g.written?) := by
  induction l with
  | nil => exact .nil
  | cons i l ih =>
    cases h : g.written? i with
    | none => simpa [h] using ih
    | some p => simpa [h] using And.intro (written?_eq_some_iff.mp h) ih

theorem filterMap_eq_of_forall₂ {sinks : List NodeId} {paths : List String}
    (h : List.Forall₂ g.WritesTo sinks paths) : sinks.filterMap g.written? = paths := by
  induction h with
  | nil => rfl
  | cons hi _ ih => rw [List.filterMap_cons, written?_eq_some_iff.mpr hi, ih]

theorem written_of_sort (h : g.sort ts = .ok s) :
    g.Written ts s (s.nodes.filter fun i => (g.written? i).isSome) (s.nodes.filterMap g.written?) where
  sorted := h
  order := List.filter_sublist
  exact := fun i => by simp [Option.isSome_iff_exists, written?_eq_some_iff]
  each := g.forall₂_written? s.nodes
  above := fun i hi => sort_above h i (List.mem_filter.mp hi).1
  all := fun hc i p hi hp => by
    obtain ⟨j, hj, hash⟩ := exists_mem_sort hc.coherent h hi
    have same := hc j i (sort_above h j hj) hi hash
    have writes : g.WritesTo j p := ⟨same.kind.trans hp.kind, same.path.trans hp.path, hp.ne_empty⟩
    refine ⟨j, List.mem_filter.mpr ⟨hj, ?_⟩, hash, writes⟩
    rw [written?_eq_some_iff.mpr writes]
    rfl

/-- The sinks that write are settled by the sort, and so are their paths. -/
theorem Written.paths_eq {sinks : List NodeId} {paths : List String}
    (h : g.Written ts s sinks paths) : s.nodes.filterMap g.written? = paths := by
  have all := written_of_sort h.sorted
  have members : ∀ i, i ∈ sinks ↔ i ∈ s.nodes.filter fun i => (g.written? i).isSome :=
    fun i => (h.exact i).trans (all.exact i).symm
  -- both rows are in the order of the sort, where no node stands twice
  have nodup : s.nodes.Nodup := .of_map _ (sort_nodup h.sorted)
  have sublist : sinks.Sublist (s.nodes.filter fun i => (g.written? i).isSome) := by
    rw [← List.filter_eq_self.mpr fun i hi => (List.mem_filter.mp ((members i).mp hi)).2]
    exact h.order.filter _
  have same : sinks = s.nodes.filter fun i => (g.written? i).isSome :=
    sublist.eq_of_length_le
      ((nodup.filter _).length_le_of_subset fun i hi => (members i).mpr hi)
  calc s.nodes.filterMap g.written?
      = sinks.filterMap g.written? := by rw [same, filterMap_eq_of_forall₂ all.each]
    _ = paths := filterMap_eq_of_forall₂ h.each

/-- **The computed paths are the paths that the outputs write.** -/
theorem outputPaths_eq_ok_iff {streams : List Stream} {paths : List String} :
    g.outputPaths streams = .ok paths ↔ g.Writes streams paths := by
  rw [outputPaths_eq, sorted]
  constructor
  · intro h
    cases hs : g.sort (g.terminals streams) with
    | error c =>
      rw [hs] at h
      cases h
    | ok s =>
      rw [hs] at h
      cases h
      exact ⟨s, _, written_of_sort hs⟩
  · rintro ⟨s, sinks, h⟩
    rw [h.sorted, ← h.paths_eq]
    rfl

end FilterGraph.Graph
