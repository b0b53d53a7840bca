import FilterGraph.Proofs.Building
import FilterGraph.Proofs.Images
import FilterGraph.Proofs.Renaming

/-!
# The graph of a renamed document

A document and the same document under other ids, its entries in another order, are built step by
step alike. Only the places of the inputs differ: the inputs are added in the order in which they are
listed, everything else when it is asked for.

* `exists_places`: where the entries of a list are found in a reordering of it;
  `Entries.idxOf_of_places`: where a key is found that was replaced by another one;
* `Carries.add`: a node and its image are added to a graph and its image;
* `node_inputs`, `find?_inputs`: the graph of the inputs, and the streams that they give;
* `Wiring.Twin`: of two graphs under construction one is the image of the other, and new ids stand for
  the images of what the old ones stand for; `twin_inputs`, `Twin.addFilter`, `Twin.addSink`: each step
  keeps this;
* `resolve_twin`, `filter_twin`, `addOutputs_twin`: whole runs keep it. The induction follows the
  resolution of the first document; the table of the filters that are built is asked for an id on the
  one side where it is asked for the new id on the other;
* **`Pipeline.names_do_not_matter`**: the new document is valid, and compiles to the same arguments or
  fails with the same text.
-/

namespace FilterGraph

/-! ## 1. Places in a reordering -/

/-- **Where the entries of a list are found in a reordering of it.** The induction is on the reordering. -/
theorem exists_places {α : Type} {l l' : List α} (h : l.Perm l') :
    ∃ σ : Nat → Nat, Function.Injective σ ∧ (∀ i, l'[σ i]? = l[i]?) ∧
      ∀ i, l.length ≤ i → σ i = i := by
  induction h with
  | nil => exact ⟨id, Function.injective_id, fun _ => rfl, fun _ _ => rfl⟩
  | cons a _ ih =>
    obtain ⟨σ, inj, get, fixes⟩ := ih
    refine ⟨fun | 0 => 0 | i + 1 => σ i + 1, fun i j heq => ?_, fun i => ?_, fun i hi => ?_⟩
    · cases i <;> cases j <;> simp_all [inj.eq_iff]
    · cases i <;> simp [get]
    · cases i with
      | zero => rfl
      | succ i => exact congrArg Nat.succ (fixes i (Nat.le_of_succ_le_succ hi))
  | swap a b l =>
    -- the two first places change with each other, all others stay
    refine ⟨Equiv.swap 0 1, (Equiv.swap 0 1).injective, fun i => ?_, fun i hi => ?_⟩
    · match i with
      | 0 => rfl
      | 1 => rfl
      | i + 2 => rw [Equiv.swap_apply_of_ne_of_ne] <;> simp
    · simp only [List.length_cons] at hi
      exact Equiv.swap_apply_of_ne_of_ne (by omega) (by omega)
  | trans first _ ih ih' =>
    obtain ⟨σ, inj, get, fixes⟩ := ih
    obtain ⟨τ, inj', get', fixes'⟩ := ih'
    refine ⟨τ ∘ σ, inj'.comp inj, fun i => (get' (σ i)).trans (get i), fun i hi => ?_⟩
    rw [Function.comp_apply, fixes i hi]
    exact fixes' i (first.length_eq ▸ hi)

/-- A key that is replaced by another one moves with its entry. -/
theorem Entries.idxOf_of_places {ν : Type} {ren : String → String} {σ : Nat → Nat}
    {es es' : List (String × ν)} (nodup : (keys es').Nodup)
    (entry : ∀ i, es'[σ i]? = (es[i]?).map fun e => (ren e.1, e.2)) {id : String}
    (hid : id ∈ keys es) : (keys es').idxOf (ren id) = σ ((keys es).idxOf id) := by
  have found : (keys es')[σ ((keys es).idxOf id)]? = some (ren id) := by
    have old : ((keys es)[(keys es).idxOf id]?).map ren = some (ren id) := by
      rw [List.getElem?_idxOf hid]
      rfl
    rw [← old, keys, keys, List.getElem?_map, List.getElem?_map, entry, Option.map_map,
      Option.map_map]
    rfl
  obtain ⟨inside, found⟩ := List.getElem?_eq_some_iff.mp found
  exact found ▸ nodup.idxOf_getElem _ inside

/-! ## 2. Adding a node and its image -/

/-- One node is the image of another. -/
structure Node.Carried (σ : NodeId → NodeId) (n n' : Node) : Prop where
  hash : n'.hash = n.hash
  kind : n'.kind = n.kind
  name : n'.name = n.name
  params : n'.params = n.params
  path : n'.path = n.path
  incoming : n'.incoming = n.incoming.map (Incoming.via σ)

namespace Graph

variable {g g' : Graph} {σ : NodeId → NodeId}

theorem carries_of_nodes (h : ∀ i, (g.node i).Carried σ (g'.node (σ i))) : g.Carries g' σ :=
  ⟨fun i => (h i).hash, fun i => (h i).kind, fun i => (h i).name, fun i => (h i).params,
    fun i => (h i).path, fun i => (h i).incoming⟩

theorem Carries.node (h : g.Carries g' σ) (i : NodeId) : (g.node i).Carried σ (g'.node (σ i)) :=
  ⟨h.hash i, h.kind i, h.name i, h.params i, h.path i, h.incoming i⟩

theorem Carries.stream (h : g.Carries g' σ) (i : NodeId) (l : Label) (c : Option Selector) :
    g'.stream (σ i) l c = (g.stream i l c).via σ := by
  rw [Graph.stream, h.kind]
  rfl

section Add

variable {kind : NodeKind} {name : String} {params : Params} {path : Option String}
  {es : List Incoming}

theorem node_add_of_ne {i : NodeId} (hi : i ≠ g.nodes.size) :
    (g.add kind name params path es).1.node i = g.node i := by
  rcases Nat.lt_or_gt_of_ne hi with hlt | hgt
  · exact node_add_of_lt _ _ _ _ _ hlt
  · have outside : ¬ i < g.nodes.size := Nat.not_lt.mpr (Nat.le_of_lt hgt)
    have outside' : ¬ i < (g.add kind name params path es).1.nodes.size := by
      rw [size_add]
      exact Nat.not_lt.mpr hgt
    rw [node, node, Array.getD, Array.getD, dif_neg outside, dif_neg outside']

/-- **A node and its image are added** in the same place. -/
theorem Carries.add (h : g.Carries g' σ) (inj : Function.Injective σ)
    (size : g'.nodes.size = g.nodes.size) (last : σ g.nodes.size = g.nodes.size) :
    (g.add kind name params path es).1.Carries
      (g'.add kind name params path (es.map (Incoming.via σ))).1 σ := by
  have terms : (es.map (Incoming.via σ)).map g'.term = es.map g.term := by
    rw [List.map_map]
    refine List.map_congr_left fun e _ => ?_
    have number : g'.hash (e.via σ).supply.node = g.hash e.supply.node := h.hash _
    rw [Function.comp_apply, term, number]
    rfl
  refine carries_of_nodes fun i => ?_
  by_cases hi : i = g.nodes.size
  · have added := node_add_size (g := g') kind name params path (es.map (Incoming.via σ))
    rw [size, terms] at added
    rw [hi, last, added, node_add_size]
    exact ⟨rfl, rfl, rfl, rfl, rfl, by simp [Node.incoming]⟩
  · have hi' : σ i ≠ g'.nodes.size := fun heq => hi (inj (heq.trans (size.trans last.symm)))
    rw [node_add_of_ne hi, node_add_of_ne hi']
    exact h.node i

/-- The stream of a new source. -/
theorem source_snd (g : Graph) (path : Option String) (params : Params) :
    (g.source path params).2 = ⟨.filterable, g.nodes.size, "", none⟩ := by
  have kind : ((g.source path params).1.node g.nodes.size).kind = .source := holds_add.kind_eq
  exact congrArg (fun k => Stream.mk (NodeKind.streamKind k) g.nodes.size "" none) kind

end Add

end Graph

/-! ## 3. The graph of the inputs -/

/-- The node of an input. -/
def InputEntry.node (e : InputEntry) : Node where
  kind := .source
  name := "input"
  params := e.params.toParams
  path := some e.path
  inputs := []
  feedback := []
  hash := Identity.node Digest.ofJson .source "input" e.params.toParams (some e.path) []

theorem Feeds.edges_via (σ : NodeId → NodeId) (ss : List Stream) :
    (Feeds.ofStreams (ss.map (Stream.via σ))).edges =
      (Feeds.ofStreams ss).edges.map (Incoming.via σ) := by
  have row : ∀ ss : List Stream, (Feeds.many (ss.map (Stream.via σ))).edges =
      (Feeds.many ss).edges.map (Incoming.via σ) := by
    refine fun ss => List.ext_getElem? fun i => ?_
    rw [edges, edges, List.getElem?_mapIdx, List.getElem?_map, List.getElem?_map,
      List.getElem?_mapIdx, Option.map_map, Option.map_map]
    rfl
  cases ss with
  | nil => rfl
  | cons s rest =>
    cases rest with
    | nil => rfl
    | cons t ss => exact row (s :: t :: ss)

namespace Wiring

open FilterGraph.Graph

/-- A graph of inputs alone. -/
def ofInputs (es : List (String × InputEntry)) : Wiring := es.foldl addInput ⟨.empty, [], []⟩

section Inputs

variable {es : List (String × InputEntry)} {id : String}

theorem ofInputs_snoc (es : List (String × InputEntry)) (e : String × InputEntry) :
    ofInputs (es ++ [e]) = (ofInputs es).addInput e :=
  List.foldl_append ..

theorem filters_inputs (es : List (String × InputEntry)) : (ofInputs es).filters = [] := by
  induction es using List.reverseRecOn with
  | nil => rfl
  | append_singleton es e ih => rw [ofInputs_snoc]; exact ih

theorem nodes_inputs (es : List (String × InputEntry)) :
    (ofInputs es).graph.nodes = (es.map (·.2.node)).toArray := by
  induction es using List.reverseRecOn with
  | nil => rfl
  | append_singleton es e ih =>
    have added : (ofInputs (es ++ [e])).graph.nodes = (ofInputs es).graph.nodes.push e.2.node := by
      rw [ofInputs_snoc]
      rfl
    rw [added, ih, List.map_append, List.push_toArray]
    rfl

theorem size_inputs (es : List (String × InputEntry)) :
    (ofInputs es).graph.nodes.size = es.length := by
  rw [nodes_inputs, List.size_toArray, List.length_map]

theorem node_inputs (es : List (String × InputEntry)) (i : NodeId) :
    (ofInputs es).graph.node i = ((es[i]?).map (·.2.node)).getD default := by
  rw [Graph.node, nodes_inputs, Array.getD_eq_getD_getElem?, List.getElem?_toArray, List.getElem?_map]

/-- The stream of an input comes from the place where the input is listed. -/
theorem find?_inputs (nodup : (Entries.keys es).Nodup) : Entries.find? id (ofInputs es).sources =
    if id ∈ Entries.keys es then some ⟨.filterable, (Entries.keys es).idxOf id, "", none⟩ else none := by
  induction es using List.reverseRecOn with
  | nil => rfl
  | append_singleton es e ih =>
    rw [Entries.keys, List.map_append, List.nodup_append] at nodup
    have before : e.1 ∉ Entries.keys es := fun h => nodup.2.2 _ h _ (List.mem_singleton_self _) rfl
    have keys : Entries.keys (es ++ [e]) = Entries.keys es ++ [e.1] := List.map_append
    have added : Entries.find? id (ofInputs (es ++ [e])).sources =
        if id = e.1 then some ⟨.filterable, es.length, "", none⟩
        else Entries.find? id (ofInputs es).sources := by
      rw [ofInputs_snoc, ← size_inputs es, ← source_snd]
      exact Entries.find?_set ..
    rw [added, ih nodup.1, keys]
    by_cases heq : id = e.1
    · rw [if_pos heq, heq, if_pos (List.mem_append_right _ (List.mem_singleton_self _)),
        List.idxOf_append_of_notMem before, List.idxOf_cons_self, Entries.keys, List.length_map]
      rfl
    · rw [if_neg heq]
      by_cases hid : id ∈ Entries.keys es
      · rw [if_pos hid, if_pos (List.mem_append_left _ hid), List.idxOf_append_of_mem hid]
      · have out : id ∉ Entries.keys es ++ [e.1] := by
          simp [hid, heq]
        rw [if_neg hid, if_neg out]

end Inputs

/-! ## 4. Twins -/

/-- Two graphs under construction: the one is the image of the other, with everything in its place
that is added later, and ids stand for the images of what they stand for under their old names. -/
structure Twin (ren : String → String) (ids : List String) (σ : NodeId → NodeId)
    (w w' : Wiring) : Prop where
  carries : w.graph.Carries w'.graph σ
  injective : Function.Injective σ
  size : w'.graph.nodes.size = w.graph.nodes.size
  fixes : ∀ i, w.graph.nodes.size ≤ i → σ i = i
  sources : ∀ id ∈ ids, Entries.find? (ren id) w'.sources =
    (Entries.find? id w.sources).map (Stream.via σ)
  filters : ∀ id ∈ ids, Entries.find? (ren id) w'.filters =
    (Entries.find? id w.filters).map fun m => ⟨σ m.node⟩

variable {ren : String → String} {ids : List String} {σ : NodeId → NodeId} {w w' w₁ : Wiring}

/-- **The graphs of the inputs are twins**, whatever the order in which the inputs are listed. -/
theorem twin_inputs {d d' : Document} (h : d.Renames ren d')
    (nodup : (Entries.keys d.inputs).Nodup) :
    ∃ σ, Twin ren d.ids σ (ofInputs d.inputs) (ofInputs d'.inputs) := by
  obtain ⟨σ, inj, get, fixes⟩ := exists_places h.reorders.inputs
  have length : d'.inputs.length = d.inputs.length := by
    rw [← h.reorders.inputs.length_eq]
    exact List.length_map _
  have entry : ∀ i, d'.inputs[σ i]? = (d.inputs[i]?).map fun e => (ren e.1, e.2) := fun i =>
    (get i).trans List.getElem?_map
  have node : ∀ i, (ofInputs d'.inputs).graph.node (σ i) = (ofInputs d.inputs).graph.node i := by
    intro i
    rw [node_inputs, node_inputs, entry, Option.map_map]
    rfl
  have unfed : ∀ i, ((ofInputs d.inputs).graph.node i).incoming = [] := by
    intro i
    rw [node_inputs]
    cases d.inputs[i]? <;> rfl
  refine ⟨σ, carries_of_nodes fun i => ?_, inj, ?_, fun i hi => ?_, fun id hid => ?_, fun id hid => ?_⟩
  · rw [node]
    exact ⟨rfl, rfl, rfl, rfl, rfl, by rw [unfed]; rfl⟩
  · rw [size_inputs, size_inputs, length]
  · rw [size_inputs, ← List.length_map (fun e : String × InputEntry => (ren e.1, e.2))] at hi
    exact fixes i hi
  · rw [find?_inputs nodup, find?_inputs (h.nodup_inputIds nodup)]
    by_cases hin : id ∈ Entries.keys d.inputs
    · have hin' : ren id ∈ Entries.keys d'.inputs := (h.mem_inputIds_iff hid).mpr hin
      have place : (Entries.keys d'.inputs).idxOf (ren id) =
          σ ((Entries.keys d.inputs).idxOf id) :=
        Entries.idxOf_of_places (h.nodup_inputIds nodup) entry hin
      rw [if_pos hin, if_pos hin', place]
      rfl
    · have out : ren id ∉ Entries.keys d'.inputs := fun hin' =>
        hin ((h.mem_inputIds_iff hid).mp hin')
      rw [if_neg hin, if_neg out]
      rfl
  · rw [filters_inputs, filters_inputs]
    rfl

/-- A node that streams feed is added to both. -/
theorem Twin.add (h : Twin ren ids σ w w') (kind : NodeKind) (name : String) (params : Params)
    (path : Option String) (ss : List Stream) :
    Twin ren ids σ
      { w with graph := (w.graph.add kind name params path (Feeds.ofStreams ss).edges).1 }
      { w' with graph := (w'.graph.add kind name params path
          (Feeds.ofStreams (ss.map (Stream.via σ))).edges).1 } where
  carries := by
    rw [Feeds.edges_via]
    exact h.carries.add h.injective h.size (h.fixes _ (Nat.le_refl _))
  injective := h.injective
  size := by rw [size_add, size_add, h.size]
  fixes i hi := by
    rw [size_add] at hi
    exact h.fixes i (Nat.le_of_succ_le hi)
  sources := h.sources
  filters := h.filters

/-- What is added next has its image in the same place. -/
theorem Twin.last (h : Twin ren ids σ w w') : w'.graph.nodes.size = σ w.graph.nodes.size :=
  h.size.trans (h.fixes _ (Nat.le_refl _)).symm

/-- An id and its new name are given to a filter and to its image. -/
theorem Twin.set (h : Twin ren ids σ w w') (inj : Set.InjOn ren {id | id ∈ ids}) {id : String}
    (hid : id ∈ ids) (i : NodeId) :
    Twin ren ids σ { w with filters := Entries.set id ⟨i⟩ w.filters }
      { w' with filters := Entries.set (ren id) ⟨σ i⟩ w'.filters } := by
  refine ⟨h.carries, h.injective, h.size, h.fixes, h.sources, fun x hx => ?_⟩
  rw [Entries.find?_set, Entries.find?_set]
  by_cases heq : x = id
  · rw [if_pos heq, if_pos (congrArg ren heq)]
    rfl
  · rw [if_neg heq, if_neg fun hr => heq (inj hx hid hr)]
    exact h.filters x hx

theorem Twin.addFilter (h : Twin ren ids σ w w') (inj : Set.InjOn ren {id | id ∈ ids}) {id : String}
    (hid : id ∈ ids) (f : FilterEntry) (ss : List Stream) :
    Twin ren ids σ (w.addFilter id f ss).1
        (w'.addFilter (ren id) (f.renamed ren) (ss.map (Stream.via σ))).1 ∧
      (w'.addFilter (ren id) (f.renamed ren) (ss.map (Stream.via σ))).2 =
        ⟨σ (w.addFilter id f ss).2.node⟩ := by
  have added := (h.add .transform f.name f.params.toParams none ss).set inj hid w.graph.nodes.size
  rw [← h.last] at added
  exact ⟨added, congrArg MultiOutput.mk h.last⟩

theorem Twin.addSink (h : Twin ren ids σ w w') (o : OutputEntry) (ss : List Stream) :
    Twin ren ids σ (w.addSink o ss).1 (w'.addSink (o.renamed ren) (ss.map (Stream.via σ))).1 ∧
      (w'.addSink (o.renamed ren) (ss.map (Stream.via σ))).2 = (w.addSink o ss).2.via σ := by
  have added := h.add .sink "output" o.params.toParams (some o.path) ss
  have stream := added.carries.stream w.graph.nodes.size "" none
  rw [← h.last] at stream
  exact ⟨added, stream⟩

theorem Twin.narrowed (h : Twin ren ids σ w w') (s : Stream) (c : Option Selector) :
    w'.narrowed (s.via σ) c = (w.narrowed s c).map (Stream.via σ) := by
  cases c with
  | none => rfl
  | some c =>
    have stream : w'.graph.stream (s.via σ).node (s.via σ).label (some c) =
        (w.graph.stream s.node s.label (some c)).via σ := h.carries.stream _ _ _
    rw [Wiring.narrowed, Wiring.narrowed, narrow, narrow, stream,
      show (s.via σ).selector = s.selector from rfl]
    cases s.selector <;> rfl

theorem Twin.narrowed_eq_ok (h : Twin ren ids σ w w') {s₀ s : Stream} {c : Option Selector}
    (hs : (w.narrowed s₀ c).map (w, ·) = .ok (w₁, s)) :
    ∃ w₁', (w'.narrowed (s₀.via σ) c).map (w', ·) = .ok (w₁', s.via σ) ∧ Twin ren ids σ w₁ w₁' := by
  obtain ⟨t, narrowed, heq⟩ := map_eq_ok_iff.mp hs
  cases heq
  exact ⟨w', by rw [h.narrowed, narrowed]; rfl, h⟩

/-! ## 5. Filters and outputs -/

section Runs

variable {fs fs' : Filters}

/-- A filter that was not there has been added after all that it asks for. -/
theorem exists_added {path : List String} {id : String} {m : MultiOutput}
    (hnew : Entries.find? id w.filters = none)
    (h : Wiring.filter fs path w id = .ok (w₁, m)) :
    id ∉ path ∧ ∃ f w₂ ss, Entries.find? id fs = some f ∧
      resolveAll fs (path ++ [id]) w f.inputs = .ok (w₂, ss) ∧ w₂.addFilter id f ss = (w₁, m) := by
  rw [Wiring.filter, hnew] at h
  dsimp only at h
  split at h
  · cases h
  split at h
  · cases h
  · rename_i off f hf
    obtain ⟨⟨w₂, ss⟩, hall, added⟩ := map_eq_ok_iff.mp h
    exact ⟨off, f, w₂, ss, hf, hall, added⟩

mutual

/-- A renamed address names the image of what the address names. -/
theorem resolve_twin {path : List String} {w w' w₁ : Wiring} {r : StreamAddress} {s : Stream}
    (hfs : fs.Renamed ren ids fs') (t : Twin ren ids σ w w') (hpath : ∀ x ∈ path, x ∈ ids)
    (hr : r.node ∈ ids) (h : resolve fs path w r = .ok (w₁, s)) :
    ∃ w₁', resolve fs' (path.map ren) w' (r.renamed ren) = .ok (w₁', s.via σ) ∧
      Twin ren ids σ w₁ w₁' := by
  have source : Entries.find? (r.renamed ren).node w'.sources =
      (Entries.find? r.node w.sources).map (Stream.via σ) := t.sources r.node hr
  rw [resolve] at h ⊢
  rw [source]
  split at h
  · rename_i s₀ hs
    rw [hs]
    exact t.narrowed_eq_ok h
  · rename_i hs
    rw [hs]
    split at h
    · cases h
    · rename_i w₂ m hm
      obtain ⟨w₂', hm', t₂⟩ := filter_twin hfs t hpath hr hm
      have built : Wiring.filter fs' (path.map ren) w' (r.renamed ren).node =
          .ok (w₂', ⟨σ m.node⟩) := hm'
      rw [Option.map_none, built]
      have narrowed := t₂.narrowed_eq_ok h
      rw [← t₂.carries.stream] at narrowed
      exact narrowed
termination_by (fs.offPath path, 1)

/-- Renamed addresses name the images of what the addresses name. -/
theorem resolveAll_twin {path : List String} {w w' w₁ : Wiring} {rs : List StreamAddress}
    {ss : List Stream} (hfs : fs.Renamed ren ids fs') (t : Twin ren ids σ w w')
    (hpath : ∀ x ∈ path, x ∈ ids) (hrs : ∀ r ∈ rs, r.node ∈ ids)
    (h : resolveAll fs path w rs = .ok (w₁, ss)) :
    ∃ w₁', resolveAll fs' (path.map ren) w' (rs.map (·.renamed ren)) =
        .ok (w₁', ss.map (Stream.via σ)) ∧ Twin ren ids σ w₁ w₁' := by
  match rs with
  | [] =>
    rw [resolveAll] at h
    cases h
    exact ⟨w', by rw [List.map_nil, resolveAll]; rfl, t⟩
  | r :: rs =>
    rw [resolveAll] at h
    split at h
    · cases h
    · rename_i w₂ s hs
      obtain ⟨w₂', hs', t₂⟩ := resolve_twin hfs t hpath (hrs r List.mem_cons_self) hs
      obtain ⟨⟨w₃, ss⟩, hrest, heq⟩ := map_eq_ok_iff.mp h
      cases heq
      obtain ⟨w₃', hrest', t₃⟩ :=
        resolveAll_twin hfs t₂ hpath (fun r hr => hrs r (List.mem_cons_of_mem _ hr)) hrest
      refine ⟨w₃', ?_, t₃⟩
      rw [List.map_cons, resolveAll, hs']
      exact congrArg (Except.map _) hrest'
termination_by (fs.offPath path, rs.length + 2)

/-- The outputs under a new name are the images of those under the old one. -/
theorem filter_twin {path : List String} {w w' w₁ : Wiring} {id : String} {m : MultiOutput}
    (hfs : fs.Renamed ren ids fs') (t : Twin ren ids σ w w') (hpath : ∀ x ∈ path, x ∈ ids)
    (hid : id ∈ ids) (h : Wiring.filter fs path w id = .ok (w₁, m)) :
    ∃ w₁', Wiring.filter fs' (path.map ren) w' (ren id) = .ok (w₁', ⟨σ m.node⟩) ∧
      Twin ren ids σ w₁ w₁' := by
  have table := t.filters id hid
  cases hnew : Entries.find? id w.filters with
  | some m₀ =>
    rw [hnew] at table
    rw [Wiring.filter, hnew] at h
    cases h
    exact ⟨w', by rw [Wiring.filter, table]; rfl, t⟩
  | none =>
    rw [hnew] at table
    obtain ⟨off, f, w₂, ss, hf, hall, added⟩ := exists_added hnew h
    -- new names are apart where old ones are, so the new id is not on the image of the path
    have off' : ren id ∉ path.map ren := by
      intro hm
      obtain ⟨x, hx, heq⟩ := List.mem_map.mp hm
      exact off (hfs.injOn (hpath x hx) hid heq ▸ hx)
    have path' : ∀ x ∈ path ++ [id], x ∈ ids := by
      intro x hx
      rcases List.mem_append.mp hx with hx | hx
      · exact hpath x hx
      · exact List.mem_singleton.mp hx ▸ hid
    have hf' : Entries.find? (ren id) fs' = some (f.renamed ren) := by
      rw [hfs.find? id hid, hf]
      rfl
    obtain ⟨w₂', hall', t₂⟩ := resolveAll_twin hfs t path' (hfs.references id f hf) hall
    obtain ⟨t₃, outputs⟩ := t₂.addFilter hfs.injOn hid f ss
    rw [added] at t₃ outputs
    rw [List.map_append] at hall'
    refine ⟨_, ?_, t₃⟩
    rw [filter_of_new table off' hf', ← outputs]
    exact congrArg (Except.map _) hall'
termination_by (fs.offPath path, 0)
decreasing_by exact Prod.Lex.left _ _ (Filters.offPath_append_lt ‹_› ‹_›)

end

theorem addOutput_twin (hfs : fs.Renamed ren ids fs') (t : Twin ren ids σ w w') {o : OutputEntry}
    (ho : ∀ r ∈ o.inputs, r.node ∈ ids) {s : Stream} (h : addOutput fs w o = .ok (w₁, s)) :
    ∃ w₁', addOutput fs' w' (o.renamed ren) = .ok (w₁', s.via σ) ∧ Twin ren ids σ w₁ w₁' := by
  obtain ⟨⟨w₂, ss⟩, hall, heq⟩ := map_eq_ok_iff.mp h
  have added : w₂.addSink o ss = (w₁, s) := heq
  obtain ⟨w₂', hall', t₂⟩ := resolveAll_twin hfs t (fun _ hx => absurd hx List.not_mem_nil) ho hall
  obtain ⟨t₃, stream⟩ := t₂.addSink o ss
  rw [added] at t₃ stream
  refine ⟨_, ?_, t₃⟩
  rw [← stream]
  exact congrArg (Except.map _) hall'

/-- Outputs are added to both, one after the other. -/
theorem addOutputs_twin (hfs : fs.Renamed ren ids fs') (t : Twin ren ids σ w w')
    {os : List OutputEntry} (hos : ∀ o ∈ os, ∀ r ∈ o.inputs, r.node ∈ ids) {ss : List Stream}
    (h : addOutputs fs w os = .ok (w₁, ss)) :
    ∃ w₁', addOutputs fs' w' (os.map (·.renamed ren)) = .ok (w₁', ss.map (Stream.via σ)) ∧
      Twin ren ids σ w₁ w₁' := by
  induction os generalizing w w' ss with
  | nil =>
    cases h
    exact ⟨w', rfl, t⟩
  | cons o os ih =>
    rw [addOutputs] at h
    split at h
    · cases h
    · rename_i w₂ s hs
      obtain ⟨w₂', hs', t₂⟩ := addOutput_twin hfs t (hos o List.mem_cons_self) hs
      obtain ⟨⟨w₃, ss⟩, hrest, heq⟩ := map_eq_ok_iff.mp h
      cases heq
      obtain ⟨w₃', hrest', t₃⟩ := ih t₂ (fun o ho => hos o (List.mem_cons_of_mem _ ho)) hrest
      refine ⟨w₃', ?_, t₃⟩
      rw [List.map_cons, addOutputs, hs']
      exact congrArg (Except.map _) hrest'

end Runs

end Wiring

/-! ## 6. Documents -/

section Messages

variable {g g' : Graph} {σ : NodeId → NodeId}

theorem Graph.Carries.graphMessage_via (h : g.Carries g' σ) (e : GraphError) :
    (e.via σ).message g' = e.message g := by
  cases e with
  | cycle i =>
    show "Graph is not a DAG: cycle through " ++ (g'.node (σ i)).kind.name ++ " node '" ++
      (g'.node (σ i)).name ++ "'" = _
    rw [h.kind i, h.name i]
    rfl
  | multipleConsumers i label consumers =>
    have names : (consumers.map (Consumer.via σ)).map (fun c => "'" ++ (g'.node c.node).name ++ "'") =
        consumers.map fun c => "'" ++ (g.node c.node).name ++ "'" := by
      rw [List.map_map]
      exact List.map_congr_left fun c _ => congrArg (fun n => "'" ++ n ++ "'") (h.name c.node)
    show "Output '" ++ label ++ "' of filter '" ++ (g'.node (σ i)).name ++ "' has " ++
      toString (consumers.map (Consumer.via σ)).length ++ " consumers (" ++
      ", ".intercalate ((consumers.map (Consumer.via σ)).map fun c =>
        "'" ++ (g'.node c.node).name ++ "'") ++
      "); each filter output can feed only one consumer" = _
    rw [names, List.length_map, h.name i]
    rfl

/-- **An error shows what a node and its image have in common.** -/
theorem Graph.Carries.message_via (h : g.Carries g' σ) (e : CompileError) :
    (e.via σ).message g' = e.message g := by
  cases e with
  | graph e => exact h.graphMessage_via e
  | unnamed u =>
    show "No stream name allocated for output '" ++ u.label ++ "' of '" ++ (g'.node (σ u.node)).name ++
      "'" = _
    rw [h.name u.node]
    rfl

end Messages

namespace Pipeline

open Wiring Document

variable {p p' : Pipeline} {ren : String → String}

/-- The graphs of two documents that differ by a renaming are images of each other. -/
theorem exists_image (h : p.document.Renames ren p'.document) (shaped : p.document.Shaped) :
    ∃ g ss g' σ, p.toGraph .empty = .ok (g, ss) ∧
      p'.toGraph .empty = .ok (g', ss.map (Stream.via σ)) ∧ g.Carries g' σ := by
  have names := names_of_order p.document_order
  have known : ∀ o ∈ p.document.outputs, ∀ r ∈ o.inputs, r.node ∈ p.document.ids := fun o ho r hr =>
    (names r (mem_addresses_iff.mpr (.inr ⟨o, ho, hr⟩))).mem_ids
  obtain ⟨w, ss, built, _⟩ := p.exists_built .empty
  obtain ⟨⟨w, ss⟩, hall, _⟩ := map_eq_ok_iff.mp
    (show ((ofInputs _).addOutputs _ _).map _ = _ from built)
  obtain ⟨σ, t⟩ := twin_inputs h shaped.inputIds
  obtain ⟨w', hall', t'⟩ :=
    addOutputs_twin (h.filters_renamed shaped.filterIds names) t known hall
  have outputs : p'.document.outputs = p.document.outputs.map (·.renamed ren) := h.reorders.outputs
  rw [← outputs] at hall'
  exact ⟨w.graph, ss, w'.graph, σ, congrArg (Except.map _) hall, congrArg (Except.map _) hall',
    t'.carries⟩

/-- Both documents are built, and for all settings their graphs compile to the same arguments or fail
with the same text. -/
def CompilesLike (p p' : Pipeline) : Prop :=
  ∃ g ss g' ss', p.toGraph .empty = .ok (g, ss) ∧ p'.toGraph .empty = .ok (g', ss') ∧
    ∀ settings, (g'.compile settings ss').mapError (·.message g') =
      (g.compile settings ss).mapError (·.message g)

theorem compilesLike_of_renames (h : p.document.Renames ren p'.document)
    (shaped : p.document.Shaped) : p.CompilesLike p' := by
  obtain ⟨g, ss, g', σ, built, built', carries⟩ := exists_image h shaped
  refine ⟨g, ss, g', _, built, built', fun settings => ?_⟩
  rw [carries.compile_via]
  cases g.compile settings ss with
  | ok args => rfl
  | error e => exact congrArg Except.error (carries.message_via e)

/-- **Ids and the order of listing are only names.** When the ids of a valid document are replaced by
other ids, different ones by different ones, and its inputs and filters are listed in any order, the
new document is valid too, and both have the same command or fail with the same text. -/
theorem names_do_not_matter {v : Json} {d' : Document} (hp : ofJson v = .ok p)
    (h : p.document.Renames ren d') :
    ∃ p' : Pipeline, p'.document = d' ∧ (∃ v', ofJson v' = .ok p') ∧
      (∀ v', Document.check v' = .ok d' → ofJson v' = .ok p') ∧ p.CompilesLike p' := by
  obtain ⟨shaped, order, horder⟩ := exists_ofJson_iff.mp ⟨v, p, hp, rfl⟩
  have shaped' := h.shaped shaped (names_of_order horder)
  have ordered := h.exists_order shaped.filterIds horder
  obtain ⟨v', p', read, rfl⟩ := exists_ofJson_iff.mpr ⟨shaped', ordered⟩
  exact ⟨p', rfl, ⟨v', read⟩, fun _ shape => ofJson_eq_ok shape p'.document_order,
    compilesLike_of_renames h shaped⟩

end Pipeline

/-- A picture is made smaller and laid over another one. -/
def layeredDocument : Document where
  inputs := [("base", ⟨"base.mp4", default⟩), ("logo", ⟨"logo.png", default⟩)]
  filters := [("over", ⟨"overlay", [⟨"base", "", none⟩, ⟨"small", "", none⟩], default⟩),
    ("small", ⟨"scale", [⟨"logo", "", some .video⟩], default⟩)]
  outputs := [⟨"out.mp4", [⟨"over", "", none⟩], default⟩]

/-- The same document, its inputs and filters listed the other way round, and each called by the name
of the other. -/
def swappedDocument : Document where
  inputs := [("base", ⟨"logo.png", default⟩), ("logo", ⟨"base.mp4", default⟩)]
  filters := [("over", ⟨"scale", [⟨"base", "", some .video⟩], default⟩),
    ("small", ⟨"overlay", [⟨"logo", "", none⟩, ⟨"over", "", none⟩], default⟩)]
  outputs := [⟨"out.mp4", [⟨"small", "", none⟩], default⟩]

/-- Swaps the names of the inputs and those of the filters. -/
def swappedName (id : String) : String :=
  if id = "base" then "logo" else if id = "logo" then "base"
  else if id = "over" then "small" else if id = "small" then "over" else id

theorem layeredDocument_order : layeredDocument.order = .ok ["small", "over"] := by
  refine Document.order_eq_ok_iff.mpr ⟨rfl, rfl, ?_⟩
  simp [Filters.order, Filters.visit, Filters.visitAll, layeredDocument, Entries.find?, Except.map,
    bind, Except.bind, pure, Except.pure]

theorem layeredDocument_renames : layeredDocument.Renames swappedName swappedDocument where
  injOn := by
    have apart : ∀ a ∈ layeredDocument.ids, ∀ b ∈ layeredDocument.ids,
        swappedName a = swappedName b → a = b := by decide
    exact fun a ha b hb => apart a ha b hb
  wellFormed := by decide
  reorders := ⟨.swap _ _ _, .swap _ _ _, rfl⟩

/-- The swapped document is valid and has the same command. -/
theorem Pipeline.names_do_not_matter_layered :
    Pipeline.ofJson layeredDocument.toJson =
        .ok ⟨layeredDocument, ["small", "over"], layeredDocument_order⟩ ∧
      layeredDocument.Renames swappedName swappedDocument ∧
      ∃ p' : Pipeline, p'.document = swappedDocument ∧ (∃ v', Pipeline.ofJson v' = .ok p') ∧
        (∀ v', Document.check v' = .ok swappedDocument → Pipeline.ofJson v' = .ok p') ∧
        Pipeline.CompilesLike ⟨layeredDocument, ["small", "over"], layeredDocument_order⟩ p' := by
  have read : Pipeline.ofJson layeredDocument.toJson =
      .ok ⟨layeredDocument, ["small", "over"], layeredDocument_order⟩ :=
    Pipeline.ofJson_eq_ok rfl layeredDocument_order
  exact ⟨read, layeredDocument_renames, Pipeline.names_do_not_matter read layeredDocument_renames⟩

end FilterGraph
