import FilterGraph.Command.Compile
import FilterGraph.Proofs.Rows

/-!
# A graph inside another

A map from places to places that keeps numbers, contents and edges carries everything that is done
with a graph into another graph.

* `via`: the same with every place mapped, for streams, edges, sorts and errors;
* `Graph.Carries`: the map keeps the number and the content of each node, and its edges in their
  order;
* `Carries.sort_via`, `Carries.statement_via`, `Carries.outputFragment_via`: what is found out about
  the one graph is what is found out about the other;
* **`Carries.compile_via`**: both graphs compile to the same vector of arguments, or fail for the
  same reason at nodes that are mapped to each other.
-/

namespace FilterGraph

/-! ## 1. Mapping places -/

section Via

variable (ρ : NodeId → NodeId)

def Supply.via (u : Supply) : Supply := { u with node := ρ u.node }

def Incoming.via (e : Incoming) : Incoming := { e with supply := e.supply.via ρ }

def Stream.via (s : Stream) : Stream := { s with node := ρ s.node }

def Consumer.via (c : Consumer) : Consumer := { c with node := ρ c.node }

def Outlets.via (m : Outlets) : Outlets := m.map fun x => (x.1, x.2.map (Consumer.via ρ))

def Sorted.via (s : Sorted) : Sorted :=
  ⟨s.nodes.map ρ, s.outgoing.map fun x => (x.1, Outlets.via ρ x.2)⟩

def CycleFound.via (c : CycleFound) : CycleFound := ⟨ρ c.node⟩

def Unnamed.via (u : Unnamed) : Unnamed := { u with node := ρ u.node }

def GraphError.via : GraphError → GraphError
  | .cycle i => .cycle (ρ i)
  | .multipleConsumers i label consumers =>
    .multipleConsumers (ρ i) label (consumers.map (Consumer.via ρ))

def CompileError.via : CompileError → CompileError
  | .graph e => .graph (e.via ρ)
  | .unnamed u => .unnamed (u.via ρ)

/-- The path of a walk. -/
def Graph.Trail.via (path : Graph.Trail) : Graph.Trail :=
  path.map fun p => (ρ p.1, p.2.map (Incoming.via ρ))

end Via

/-! ## 2. The sort -/

namespace Graph

/-- Place by place, one graph stands inside another: numbers and contents are kept, and the edges of
a node, in their order, with their suppliers mapped. -/
structure Carries (g g' : Graph) (ρ : NodeId → NodeId) : Prop where
  hash : ∀ i, g'.hash (ρ i) = g.hash i
  kind : ∀ i, (g'.node (ρ i)).kind = (g.node i).kind
  name : ∀ i, (g'.node (ρ i)).name = (g.node i).name
  params : ∀ i, (g'.node (ρ i)).params = (g.node i).params
  path : ∀ i, (g'.node (ρ i)).path = (g.node i).path
  incoming : ∀ i, g'.incoming (ρ i) = (g.incoming i).map (Incoming.via ρ)

variable {g g' : Graph} {ρ : NodeId → NodeId}

theorem via_record (s : Sorted) (d : Digest) (l : Label) (c : Consumer) :
    (s.record d l c).via ρ = (s.via ρ).record d l (c.via ρ) := by
  unfold Sorted.record Sorted.via
  congr 1
  refine Entries.map_values_modify _ d (fun o => ?_) s.outgoing
  unfold Outlets.via
  rw [Entries.map_values_modify]
  · cases o <;> rfl
  · intro o
    cases o <;> simp

theorem via_finish (s : Sorted) (i : NodeId) : (s.finish i).via ρ = (s.via ρ).finish (ρ i) := by
  simp [Sorted.finish, Sorted.via]

theorem entered_via (path : Trail) : entered (Trail.via ρ path) = (entered path).map ρ := by
  simp [entered, Trail.via]

theorem via_cons (i : NodeId) (es : List Incoming) (path : Trail) :
    Trail.via ρ ((i, es) :: path) = (ρ i, es.map (Incoming.via ρ)) :: Trail.via ρ path := rfl

theorem Carries.holds_map (h : g.Carries g' ρ) (ids : List NodeId) (d : Digest) :
    g'.holds (ids.map ρ) d = g.holds ids d := by
  simp [holds, List.any_map, Function.comp_def, h.hash]

/-- **A walk leads through the image of its path.** The induction follows the walk: every test on the
way gives the same answer. -/
theorem Carries.walk_via (h : g.Carries g' ρ) (path : Trail) (s : Sorted) :
    g'.walk (Trail.via ρ path) (s.via ρ) =
      ((g.walk path s).map (Sorted.via ρ)).mapError (CycleFound.via ρ) := by
  have number : ∀ e : Incoming, g'.hash (e.via ρ).supply.node = g.hash e.supply.node :=
    fun e => h.hash e.supply.node
  have done : ∀ (s : Sorted) d, g'.holds (s.via ρ).nodes d = g.holds s.nodes d :=
    fun s d => h.holds_map s.nodes d
  have onPath : ∀ i path d, g'.holds (ρ i :: entered (Trail.via ρ path)) d =
      g.holds (i :: entered path) d := by
    intro i path d
    rw [entered_via, ← List.map_cons, h.holds_map]
  induction path, s using walk.induct g with
  | case1 s =>
    rw [walk]
    exact walk.eq_1 g' _
  | case2 i path s ih =>
    rw [via_cons, List.map_nil, walk, walk, ← ih, via_finish]
  | case3 i e es path s u s' hdone ih =>
    rw [via_record] at ih
    rw [via_cons, List.map_cons, walk, number, done, if_pos hdone, walk, if_pos hdone]
    exact ih
  | case4 i e es path s u hdone hpath =>
    rw [via_cons, List.map_cons, walk, number, done, if_neg hdone, onPath, if_pos hpath, walk,
      if_neg hdone, if_pos hpath]
    rfl
  | case5 i e es path s u s' hdone hpath ih =>
    have edges : g'.incoming (e.via ρ).supply.node =
        (g.incoming e.supply.node).map (Incoming.via ρ) := h.incoming e.supply.node
    rw [via_record] at ih
    rw [via_cons, List.map_cons, walk, number, done, if_neg hdone, onPath, if_neg hpath, edges,
      walk, if_neg hdone, if_neg hpath]
    exact ih

/-- **The image of a sort is the sort of the image.** -/
theorem Carries.sort_via (h : g.Carries g' ρ) (ts : List NodeId) :
    g'.sort (ts.map ρ) = ((g.sort ts).map (Sorted.via ρ)).mapError (CycleFound.via ρ) := by
  have visit : ∀ (s : Sorted) t, g'.visit (s.via ρ) (ρ t) =
      ((g.visit s t).map (Sorted.via ρ)).mapError (CycleFound.via ρ) := by
    intro s t
    unfold Graph.visit
    have done : g'.holds (s.via ρ).nodes (g'.hash (ρ t)) = g.holds s.nodes (g.hash t) := by
      rw [h.hash]
      exact h.holds_map s.nodes (g.hash t)
    rw [done, h.incoming]
    split
    · rfl
    · exact h.walk_via [(t, g.incoming t)] s
  have visits : ∀ (s : Sorted) (ts : List NodeId), (ts.map ρ).foldlM g'.visit (s.via ρ) =
      ((ts.foldlM g.visit s).map (Sorted.via ρ)).mapError (CycleFound.via ρ) := by
    intro s ts
    induction ts generalizing s with
    | nil => rfl
    | cons t ts ih =>
      rw [List.map_cons, List.foldlM_cons, List.foldlM_cons, visit]
      cases g.visit s t with
      | error c => rfl
      | ok s' => exact ih s'
  exact visits .empty ts

theorem Carries.ofKind_via (h : g.Carries g' ρ) (s : Sorted) (k : NodeKind) :
    g'.ofKind (s.via ρ) k = (g.ofKind s k).map ρ := by
  simp [ofKind, Sorted.via, List.filter_map, Function.comp_def, h.kind]

theorem Carries.outgoing_via (h : g.Carries g' ρ) (s : Sorted) (i : NodeId) :
    g'.outgoing (s.via ρ) (ρ i) = Outlets.via ρ (g.outgoing s i) := by
  unfold outgoing Sorted.via
  rw [h.hash, Entries.find?_map_values]
  cases Entries.find? (g.hash i) s.outgoing <;> rfl

theorem Carries.outgoingEdges_via (h : g.Carries g' ρ) (s : Sorted) (i : NodeId) :
    g'.outgoingEdges (s.via ρ) (ρ i) =
      (g.outgoingEdges s i).map fun x => (x.1, x.2.via ρ) := by
  rw [outgoingEdges, h.outgoing_via, Outlets.via, outgoingEdges, List.map_flatMap,
    List.flatMap_map]
  simp only [List.map_map]
  rfl

/-! ## 3. Fragments -/

variable {names : StreamNames}

theorem Carries.streamName_via (h : g.Carries g' ρ) (i : NodeId) (l : Label) :
    g'.streamName names (ρ i) l = (g.streamName names i l).mapError (Unnamed.via ρ) := by
  unfold streamName
  rw [h.hash]
  cases names.name? (g.hash i) l <;> rfl

theorem Carries.reference_via (h : g.Carries g' ρ) (final : Bool) (e : Incoming) :
    g'.reference names final (e.via ρ) =
      (g.reference names final e).mapError (Unnamed.via ρ) := by
  have name : g'.streamName names (e.via ρ).supply.node (e.via ρ).supply.label =
      (g.streamName names e.supply.node e.supply.label).mapError (Unnamed.via ρ) :=
    h.streamName_via _ _
  have kind : (g'.node (e.via ρ).supply.node).kind = (g.node e.supply.node).kind := h.kind _
  unfold reference
  rw [name, kind]
  cases g.streamName names e.supply.node e.supply.label <;> rfl

theorem Carries.references_via (h : g.Carries g' ρ) (final : Bool) (i : NodeId) :
    (g'.incoming (ρ i)).mapM (g'.reference names final) =
      ((g.incoming i).mapM (g.reference names final)).mapError (Unnamed.via ρ) := by
  rw [h.incoming]
  exact mapM_map_mapError _ _ (h.reference_via final) _

theorem Carries.pads_via (h : g.Carries g' ρ) (s : Sorted) (i : NodeId) :
    ((g'.outgoingEdges (s.via ρ) (ρ i)).mapM fun x => g'.pad names (ρ i) x.1) =
      ((g.outgoingEdges s i).mapM fun x => g.pad names i x.1).mapError (Unnamed.via ρ) := by
  rw [h.outgoingEdges_via]
  refine mapM_map_mapError _ _ (fun x => ?_) _
  unfold pad
  rw [h.streamName_via]
  cases g.streamName names i x.1 <;> rfl

/-- **A filter and its image have the same statement.** -/
theorem Carries.statement_via (h : g.Carries g' ρ) (s : Sorted) (i : NodeId) :
    g'.statement (s.via ρ) names (ρ i) =
      (g.statement s names i).mapError (Unnamed.via ρ) := by
  unfold statement
  rw [h.references_via, h.pads_via, h.name, h.params]
  cases (g.incoming i).mapM (g.reference names false) with
  | error u => rfl
  | ok inputs => cases (g.outgoingEdges s i).mapM fun x => g.pad names i x.1 <;> rfl

/-- **A sink and its image have the same arguments.** -/
theorem Carries.outputFragment_via (h : g.Carries g' ρ) (i : NodeId) :
    g'.outputFragment names (ρ i) = (g.outputFragment names i).mapError (Unnamed.via ρ) := by
  unfold outputFragment
  rw [h.references_via, h.params, h.path]
  cases (g.incoming i).mapM (g.reference names true) <;> rfl

/-! ## 4. Names -/

theorem Carries.nameSources_via (h : g.Carries g' ρ) (sources : List NodeId) :
    g'.nameSources (sources.map ρ) names = g.nameSources sources names := by
  unfold nameSources
  rw [List.zipIdx_map, List.foldl_map]
  simp [h.hash]

theorem Carries.consumedOutputs_via (h : g.Carries g' ρ) (s : Sorted) :
    g'.consumedOutputs (s.via ρ) =
      (g.consumedOutputs s).map fun o => (ρ o.1, o.2.1, o.2.2.map (Consumer.via ρ)) := by
  unfold consumedOutputs transforms
  rw [h.ofKind_via, List.flatMap_map, List.map_flatMap]
  refine congrArg (List.flatMap · _) (funext fun i => ?_)
  rw [h.outgoing_via, Outlets.via, List.map_map, List.map_map]
  rfl

theorem Carries.assignNames_via (h : g.Carries g' ρ)
    (os : List (NodeId × Label × List Consumer)) (names : StreamNames) :
    g'.assignNames (os.map fun o => (ρ o.1, o.2.1, o.2.2.map (Consumer.via ρ))) names =
      ((g.assignNames os names).1, (g.assignNames os names).2.map (GraphError.via ρ)) := by
  induction os generalizing names with
  | nil => rfl
  | cons o os ih =>
    obtain ⟨i, label, consumers⟩ := o
    rw [List.map_cons, assignNames, assignNames, List.length_map, h.hash]
    split
    · rfl
    · exact ih _

/-! ## 5. The command -/

theorem Carries.renderSorted_via (h : g.Carries g' ρ) (s : Sorted) :
    g'.renderSorted (s.via ρ) =
      ((g.renderSorted s).1, (g.renderSorted s).2.mapError (CompileError.via ρ)) := by
  have rows : ∀ names, g'.statements (s.via ρ) names =
      (g.statements s names).mapError (Unnamed.via ρ) := by
    intro names
    unfold statements transforms
    rw [h.ofKind_via]
    exact mapM_map_mapError _ _ (h.statement_via s) _
  unfold renderSorted render sources
  rw [h.ofKind_via, h.nameSources_via, h.consumedOutputs_via, h.assignNames_via]
  rcases g.assignNames (g.consumedOutputs s) (g.nameSources (g.ofKind s .source) .empty) with
    ⟨names, none | e⟩
  · simp only [Option.map_none]
    rw [rows]
    cases g.statements s names <;> rfl
  · rfl

/-- **The image of a graph has the same command.** -/
theorem Carries.command_via (h : g.Carries g' ρ) (ts : List NodeId) :
    g'.command (ts.map ρ) = (g.command ts).mapError (CompileError.via ρ) := by
  have inputs : ∀ i, g'.inputFragment (ρ i) = g.inputFragment i := by
    intro i
    rw [inputFragment, inputFragment, h.params, h.path]
  unfold command sorted
  rw [h.sort_via]
  cases g.sort ts with
  | error c => rfl
  | ok s =>
    have outputs : ∀ names, (g'.sinks (s.via ρ)).mapM (g'.outputFragment names) =
        ((g.sinks s).mapM (g.outputFragment names)).mapError (Unnamed.via ρ) := by
      intro names
      unfold sinks
      rw [h.ofKind_via]
      exact mapM_map_mapError _ _ h.outputFragment_via _
    have sources : (g'.sources (s.via ρ)).map g'.inputFragment =
        (g.sources s).map g.inputFragment := by
      unfold Graph.sources
      rw [h.ofKind_via, List.map_map]
      exact List.map_congr_left fun i _ => inputs i
    have rendered := h.renderSorted_via s
    rcases hg : g.renderSorted s with ⟨names, e | statements⟩
    · rw [hg] at rendered
      simp only [Except.map, Except.mapError, bind, Except.bind, hg, rendered]
    · rw [hg] at rendered
      simp only [Except.map, Except.mapError, bind, Except.bind, hg, rendered, outputs, sources]
      cases (g.sinks s).mapM (g.outputFragment names) <;> rfl

theorem Carries.terminals_via (h : g.Carries g' ρ) (streams : List Stream) :
    g'.terminals (streams.map (Stream.via ρ)) = (g.terminals streams).map ρ := by
  have distinct : ∀ ids kept : List NodeId,
      (ids.map ρ).foldl
          (fun kept i => if kept.any (g'.hash · == g'.hash i) then kept else kept ++ [i])
          (kept.map ρ) =
        (ids.foldl (fun kept i => if kept.any (g.hash · == g.hash i) then kept else kept ++ [i])
          kept).map ρ := by
    intro ids
    induction ids with
    | nil => exact fun kept => rfl
    | cons i ids ih =>
      intro kept
      have known : (kept.map ρ).any (g'.hash · == g'.hash (ρ i)) =
          kept.any (g.hash · == g.hash i) := by
        rw [h.hash]
        exact h.holds_map kept (g.hash i)
      rw [List.map_cons, List.foldl_cons, List.foldl_cons, known, ← ih]
      split
      · rfl
      · rw [List.map_append]
        rfl
  unfold terminals Graph.distinct
  rw [List.map_map]
  refine Eq.trans ?_ (distinct (streams.map (·.node)) [])
  rw [List.map_map]
  rfl

/-- **The image of a graph compiles to the same vector.** -/
theorem Carries.compile_via (h : g.Carries g' ρ) (settings : Settings) (streams : List Stream) :
    g'.compile settings (streams.map (Stream.via ρ)) =
      (g.compile settings streams).mapError (CompileError.via ρ) := by
  unfold compile
  rw [h.terminals_via, h.command_via]
  cases g.command (g.terminals streams) <;> rfl

end Graph

end FilterGraph
