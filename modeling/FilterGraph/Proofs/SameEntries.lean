import FilterGraph.Proofs.Building
import FilterGraph.Proofs.DocumentShape
import FilterGraph.Proofs.EqualNodes
import FilterGraph.Proofs.UniqueText

/-!
# Entries that become one node

A node is known by its number, and its id in the document does not go into it. Two entries under
different ids therefore become one node of the compiled graph when they say the same.

* `Wiring.resolve_counted`, `Pipeline.numbered_of_toGraph`: every node that a document adds is
  numbered;
* `NodeEntry`: inputs, filters and outputs as nodes, `Document.entryFor?`: what an id stands for;
* `Document.Twins`: entries that say the same, up to the order of options, and are fed by twins;
* `Wiring.Stands`: a node is as an entry says;
* **`Wired.hash_eq_of_twins`**: twins have one number; **`Wired.twins_of_hash_eq`**: unless digests
  collide, only twins have.
-/

namespace FilterGraph

/-! ## 1. Numbers of nodes that a document adds -/

/-- Parameters that name no option twice do not do so in the graph. -/
theorem EntryParams.nodup_names {params : EntryParams} (h : params.Shaped) :
    params.toParams.names.Nodup := by
  cases params with
  | options entries =>
    rw [toParams, Params.names, List.map_map]
    exact h
  | literals args => exact List.nodup_nil

namespace Wiring

open FilterGraph.Graph

/-- From place `n` on every node is numbered, and what ids stand for is there. -/
structure Counted (n : Nat) (w : Wiring) : Prop where
  nodes : ∀ i, n ≤ i → i < w.graph.nodes.size → w.graph.Numbered i
  sources : ∀ id s, Entries.find? id w.sources = some s → s.node < w.graph.nodes.size
  filters : ∀ id m, Entries.find? id w.filters = some m → m.node < w.graph.nodes.size

/-- Going on, nodes are added and all are numbered. -/
structure Counts (n : Nat) (w w' : Wiring) : Prop where
  counted : Counted n w'
  size : w.graph.nodes.size ≤ w'.graph.nodes.size

variable {n : Nat} {w w' w'' : Wiring} {fs : Filters} {ss : List Stream}

theorem Counts.trans (h : Counts n w w') (h' : Counts n w' w'') : Counts n w w'' :=
  ⟨h'.counted, Nat.le_trans h.size h'.size⟩

/-- A node that streams feed is numbered when it is added. -/
theorem Counted.add (h : Counted n w) (kind : NodeKind) (name : String) {params : Params}
    (path : Option String) (names : params.names.Nodup)
    (hss : ∀ s ∈ ss, s.node < w.graph.nodes.size) :
    Counts n w { w with graph := (w.graph.add kind name params path (Feeds.ofStreams ss).edges).1 } := by
  have inside : ∀ e ∈ (Feeds.ofStreams ss).edges, e.supply.node < w.graph.nodes.size :=
    suppliers_edges ((Feeds.streams_ofStreams ss).symm ▸ hss)
  have size := size_add (g := w.graph) kind name params path (Feeds.ofStreams ss).edges
  refine ⟨⟨fun i hn hi => ?_, fun id s hs => ?_, fun id m hm => ?_⟩, size ▸ Nat.le_succ _⟩
  · rcases Nat.lt_succ_iff_lt_or_eq.mp (size ▸ hi) with hlt | rfl
    · exact (h.nodes i hn hlt).add kind name params path _ hlt
    · exact numbered_add kind name params path _ names (Feeds.nodup_labels _) inside
  · exact size ▸ Nat.lt_succ_of_lt (h.sources id s hs)
  · exact size ▸ Nat.lt_succ_of_lt (h.filters id m hm)

theorem Counted.addFilter (h : Counted n w) (id : String) {f : FilterEntry} (hf : f.params.Shaped)
    (hss : ∀ s ∈ ss, s.node < w.graph.nodes.size) :
    Counts n w (w.addFilter id f ss).1 ∧
      (w.addFilter id f ss).2.node < (w.addFilter id f ss).1.graph.nodes.size := by
  have added := h.add .transform f.name none (EntryParams.nodup_names hf) hss
  have last : w.graph.nodes.size < (w.addFilter id f ss).1.graph.nodes.size :=
    size_add (g := w.graph) .. ▸ Nat.lt_succ_self _
  refine ⟨⟨⟨added.counted.nodes, added.counted.sources, fun x m hm => ?_⟩, added.size⟩, last⟩
  have found := (Entries.find?_set ..).symm.trans hm
  split at found
  · cases found
    exact last
  · exact added.counted.filters x m found

theorem Counted.addInput (h : Counted n w) {e : String × InputEntry} (he : e.2.params.Shaped) :
    Counts n w (w.addInput e) := by
  have unfed : ∀ s ∈ ([] : List Stream), s.node < w.graph.nodes.size :=
    fun _ hs => absurd hs List.not_mem_nil
  have added := h.add .source "input" (some e.2.path) (EntryParams.nodup_names he) unfed
  have last : w.graph.nodes.size < (w.addInput e).graph.nodes.size :=
    size_add (g := w.graph) .. ▸ Nat.lt_succ_self _
  refine ⟨⟨added.counted.nodes, fun x s hs => ?_, added.counted.filters⟩, added.size⟩
  have found := (Entries.find?_set ..).symm.trans hs
  split at found
  · cases found
    exact last
  · exact added.counted.sources x s found

theorem counted_inputs (g : Graph) {es : List (String × InputEntry)}
    (hes : ∀ e ∈ es, e.2.params.Shaped) :
    Counted g.nodes.size (es.foldl Wiring.addInput ⟨g, [], []⟩) := by
  refine List.foldlRecOn es _ (motive := Counted g.nodes.size) ⟨fun i hn hi => ?_, nofun, nofun⟩
    fun w hw e he => (hw.addInput (hes e he)).counted
  exact absurd hi (Nat.not_lt.mpr hn)

/-- A narrowed stream comes from the same node. -/
theorem node_of_narrowed {s t : Stream} {c : Option Selector} (h : w.narrowed s c = .ok t) :
    t.node = s.node := by
  cases c with
  | none =>
    cases h
    rfl
  | some c =>
    rw [narrowed, narrow] at h
    cases hs : s.selector with
    | none =>
      rw [hs] at h
      cases h
      rfl
    | some c' =>
      rw [hs] at h
      cases h

mutual

theorem resolve_counted {path : List String} {w w' : Wiring} {r : StreamAddress} {s : Stream}
    (hfs : ∀ f ∈ fs, f.2.params.Shaped) (hw : Counted n w)
    (h : resolve fs path w r = .ok (w', s)) :
    Counts n w w' ∧ s.node < w'.graph.nodes.size := by
  rw [resolve] at h
  split at h
  · rename_i s₀ hs
    obtain ⟨t, narrowed, heq⟩ := map_eq_ok_iff.mp h
    cases heq
    exact ⟨⟨hw, Nat.le_refl _⟩, node_of_narrowed narrowed ▸ hw.sources _ _ hs⟩
  · split at h
    · cases h
    · rename_i w₁ m hm
      obtain ⟨counts, inside⟩ := filter_counted hfs hw hm
      obtain ⟨t, narrowed, heq⟩ := map_eq_ok_iff.mp h
      cases heq
      have node : s.node = m.node := node_of_narrowed narrowed
      exact ⟨counts, node ▸ inside⟩
termination_by (fs.offPath path, 1)

theorem resolveAll_counted {path : List String} {w w' : Wiring} {rs : List StreamAddress}
    {ss : List Stream} (hfs : ∀ f ∈ fs, f.2.params.Shaped) (hw : Counted n w)
    (h : resolveAll fs path w rs = .ok (w', ss)) :
    Counts n w w' ∧ ∀ s ∈ ss, s.node < w'.graph.nodes.size := by
  match rs with
  | [] =>
    rw [resolveAll] at h
    cases h
    exact ⟨⟨hw, Nat.le_refl _⟩, fun _ hs => absurd hs List.not_mem_nil⟩
  | r :: rs =>
    rw [resolveAll] at h
    split at h
    · cases h
    · rename_i w₁ s hs
      obtain ⟨first, inside⟩ := resolve_counted hfs hw hs
      obtain ⟨⟨w₂, ss⟩, hrest, heq⟩ := map_eq_ok_iff.mp h
      cases heq
      obtain ⟨rest, insides⟩ := resolveAll_counted hfs first.counted hrest
      refine ⟨first.trans rest, fun t ht => ?_⟩
      rcases List.mem_cons.mp ht with rfl | ht
      · exact Nat.lt_of_lt_of_le inside rest.size
      · exact insides t ht
termination_by (fs.offPath path, rs.length + 2)

theorem filter_counted {path : List String} {w w' : Wiring} {id : String} {m : MultiOutput}
    (hfs : ∀ f ∈ fs, f.2.params.Shaped) (hw : Counted n w)
    (h : Wiring.filter fs path w id = .ok (w', m)) :
    Counts n w w' ∧ m.node < w'.graph.nodes.size := by
  rw [Wiring.filter] at h
  split at h
  · rename_i m₀ hm
    cases h
    exact ⟨⟨hw, Nat.le_refl _⟩, hw.filters _ _ hm⟩
  split at h
  · cases h
  split at h
  · cases h
  · rename_i hp f hf
    obtain ⟨⟨w₁, ss⟩, hall, heq⟩ := map_eq_ok_iff.mp h
    obtain ⟨counts, insides⟩ := resolveAll_counted hfs hw hall
    obtain ⟨added, inside⟩ :=
      counts.counted.addFilter id (hfs _ (Entries.mem_of_find? hf)) insides
    rw [show w₁.addFilter id f ss = (w', m) from heq] at added inside
    exact ⟨counts.trans added, inside⟩
termination_by (fs.offPath path, 0)
decreasing_by exact Prod.Lex.left _ _ (Filters.offPath_append_lt ‹_› ‹_›)

end

theorem addOutputs_counted (hfs : ∀ f ∈ fs, f.2.params.Shaped) (hw : Counted n w)
    {os : List OutputEntry} (hos : ∀ o ∈ os, o.params.Shaped)
    (h : addOutputs fs w os = .ok (w', ss)) : Counted n w' := by
  induction os generalizing w ss with
  | nil =>
    cases h
    exact hw
  | cons o os ih =>
    rw [addOutputs] at h
    split at h
    · cases h
    · rename_i w₁ s ho
      obtain ⟨⟨w₂, ss₂⟩, hall, heq⟩ := map_eq_ok_iff.mp ho
      obtain ⟨counts, insides⟩ := resolveAll_counted hfs hw hall
      have added := counts.counted.add .sink "output" (some o.path)
        (EntryParams.nodup_names (hos o List.mem_cons_self)) insides
      obtain ⟨⟨w₃, ss₃⟩, hrest, heq'⟩ := map_eq_ok_iff.mp h
      cases heq
      cases heq'
      exact ih added.counted (fun o ho => hos o (List.mem_cons_of_mem _ ho)) hrest

end Wiring

/-- **Every node that a document adds is numbered.** -/
theorem Pipeline.numbered_of_toGraph {p : Pipeline} (shaped : p.document.Shaped) {g₀ g : Graph}
    {ss : List Stream} (h : p.toGraph g₀ = .ok (g, ss)) :
    ∀ i, g₀.nodes.size ≤ i → i < g.nodes.size → g.Numbered i := by
  obtain ⟨⟨w, ss⟩, hall, heq⟩ := map_eq_ok_iff.mp h
  cases heq
  have inputs := Wiring.counted_inputs g₀ fun e he => (shaped.inputs e he).params
  exact (Wiring.addOutputs_counted (fun f hf => (shaped.filters f hf).params) inputs
    (fun o ho => (shaped.outputs o ho).params) hall).nodes

/-! ## 2. Entries -/

/-- An entry of a document as a node: its content, and the addresses of what feeds it. -/
structure NodeEntry where
  kind : NodeKind
  name : String
  params : Params
  path : Option String
  inputs : List StreamAddress
  deriving DecidableEq, Repr

def InputEntry.asNode (e : InputEntry) : NodeEntry :=
  ⟨.source, "input", e.params.toParams, some e.path, []⟩

def FilterEntry.asNode (f : FilterEntry) : NodeEntry :=
  ⟨.transform, f.name, f.params.toParams, none, f.inputs⟩

def OutputEntry.asNode (o : OutputEntry) : NodeEntry :=
  ⟨.sink, "output", o.params.toParams, some o.path, o.inputs⟩

/-- What an address takes from the node that it names. -/
def StreamAddress.taken (r : StreamAddress) : Label × Option Selector := (r.label, r.selector)

namespace Document

/-- The entry that an id stands for. -/
def entryFor? (d : Document) (id : String) : Option NodeEntry :=
  match Entries.find? id d.inputs with
  | some e => some e.asNode
  | none => (Entries.find? id d.filters).map FilterEntry.asNode

/-- The entries that feed an entry, in the order of its addresses. -/
def suppliers (d : Document) (a : NodeEntry) : List (Option NodeEntry) :=
  a.inputs.map fun r => d.entryFor? r.node

/-- Entries that say the same: one content, up to the order of options, and addresses that take, one
by one, the same from twins. -/
inductive Twins (d : Document) : NodeEntry → NodeEntry → Prop where
  | node {a b : NodeEntry} (kind : a.kind = b.kind) (name : a.name = b.name)
      (params : a.params.SameAs b.params) (path : a.path = b.path)
      (taken : a.inputs.map StreamAddress.taken = b.inputs.map StreamAddress.taken)
      (suppliers : List.Forall₂ (Option.Rel (Twins d)) (d.suppliers a) (d.suppliers b)) : Twins d a b

/-- Addresses that take the same from twins. -/
structure Alike (d : Document) (r s : StreamAddress) : Prop where
  taken : r.taken = s.taken
  suppliers : Option.Rel d.Twins (d.entryFor? r.node) (d.entryFor? s.node)

variable {d : Document} {a b : NodeEntry}

theorem Twins.kind_eq (h : d.Twins a b) : a.kind = b.kind := by
  cases h with
  | node kind => exact kind

/-- The addresses of twins are alike. -/
theorem Twins.alike (h : d.Twins a b) : List.Forall₂ d.Alike a.inputs b.inputs := by
  cases h with
  | node _ _ _ _ taken suppliers =>
    rw [← List.forall₂_eq_eq_eq, List.forall₂_map_left_iff, List.forall₂_map_right_iff] at taken
    rw [Document.suppliers, Document.suppliers, List.forall₂_map_left_iff,
      List.forall₂_map_right_iff] at suppliers
    exact taken.mp (fun _ _ same twins => ⟨same, twins⟩) suppliers

/-- Entries of one content whose addresses are alike are twins. -/
theorem twins_of_alike (kind : a.kind = b.kind) (name : a.name = b.name)
    (params : a.params.SameAs b.params) (path : a.path = b.path)
    (h : List.Forall₂ d.Alike a.inputs b.inputs) : d.Twins a b := by
  refine .node kind name params path (map_eq_of_forall₂ h fun _ _ _ alike => alike.taken) ?_
  rw [suppliers, suppliers, List.forall₂_map_left_iff, List.forall₂_map_right_iff]
  exact h.imp fun _ _ alike => alike.suppliers

end Document

/-! ## 3. Edges of a row of streams -/

/-- The label of edge `k` of `n`. -/
def Feeds.slot (n k : Nat) : Label := if n = 1 then "" else toString k

/-- The labels of the edges depend only on their number. -/
theorem Feeds.labels_ofStreams (ss : List Stream) : (Feeds.ofStreams ss).edges.map (·.label) =
    (List.range ss.length).map (Feeds.slot ss.length) := by
  unfold Feeds.ofStreams
  split
  · rfl
  · rename_i lone
    have several : ss.length ≠ 1 := fun one => by
      obtain ⟨s, rfl⟩ := List.length_eq_one_iff.mp one
      exact lone s rfl
    rw [Feeds.labels_many]
    exact List.map_congr_left fun k _ => (if_neg several).symm

namespace Wiring

open FilterGraph.Graph

variable {d : Document} {n : Nat} {w : Wiring} {a b : NodeEntry} {i j : NodeId} {ss : List Stream}

/-- An edge takes the stream that an address names. -/
structure Leads (w : Wiring) (r : StreamAddress) (e : Incoming) : Prop where
  place : w.place? r.node = some e.supply.node
  taken : r.taken = (e.supply.label, e.supply.selector)

/-- A node is as an entry says. -/
structure Stands (w : Wiring) (a : NodeEntry) (i : NodeId) : Prop where
  kind : (w.graph.node i).kind = a.kind
  name : (w.graph.node i).name = a.name
  params : (w.graph.node i).params = a.params
  path : (w.graph.node i).path = a.path
  edges : List.Forall₂ w.Leads a.inputs (w.graph.incoming i)
  labels : w.graph.labels i = (List.range a.inputs.length).map (Feeds.slot a.inputs.length)

theorem stands_of_holds (hy : List.Forall₂ w.Yields a.inputs ss)
    (h : w.graph.Holds i a.kind a.name a.params a.path (Feeds.ofStreams ss).edges) :
    w.Stands a i := by
  refine ⟨h.kind_eq, congrArg Node.name h, congrArg Node.params h, congrArg Node.path h, ?_, ?_⟩
  · have supplies : (w.graph.incoming i).map (·.supply) = ss.map Stream.supply := by
      rw [h.incoming_eq, Feeds.map_supply_edges, Feeds.streams_ofStreams]
    rw [← List.forall₂_eq_eq_eq, List.forall₂_map_left_iff, List.forall₂_map_right_iff] at supplies
    refine (forall₂_comp hy supplies.flip).imp ?_
    rintro r e ⟨s, hs, supply⟩
    have supply : e.supply = s.supply := supply
    have stream : s = ⟨_, s.node, r.label, r.selector⟩ := hs.stream
    refine ⟨supply ▸ hs.place, ?_⟩
    rw [supply, stream]
    rfl
  · rw [labels, h.incoming_eq, Feeds.labels_ofStreams, hy.length_eq]

/-- A document as it is built: what is there reflects it, is numbered, and ends in its outputs. -/
structure Wired (d : Document) (n : Nat) (ss : List Stream) (w : Wiring) : Prop where
  reflects : Reflects d n w
  numbered : ∀ i, n ≤ i → i < w.graph.nodes.size → w.graph.Numbered i
  inputIds : (Entries.keys d.inputs).Nodup
  sinks : List.Forall₂ (Sinks n w) d.outputs ss

/-- The place of an id is a node as the entry of the id says. -/
theorem Wired.stands (h : w.Wired d n ss) {id : String} (hid : w.place? id = some i) :
    ∃ a, d.entryFor? id = some a ∧ w.Stands a i := by
  unfold Wiring.place? at hid
  cases hs : Entries.find? id w.sources with
  | some s =>
    rw [hs] at hid
    cases hid
    obtain ⟨e, he, holds, _⟩ := h.reflects.source id s hs
    have unfed : List.Forall₂ w.Yields [] [] := .nil
    refine ⟨e.asNode, ?_, stands_of_holds unfed holds⟩
    rw [Document.entryFor?, (Entries.find?_eq_some_iff_mem h.inputIds).mpr he]
  | none =>
    rw [hs] at hid
    obtain ⟨m, hm, rfl⟩ := Option.map_eq_some_iff.mp hid
    obtain ⟨out, f, ss, hf, hy, holds⟩ := h.reflects.filter id m hm
    refine ⟨f.asNode, ?_, stands_of_holds hy holds⟩
    have none : Entries.find? id d.inputs = none := by
      cases hin : Entries.find? id d.inputs with
      | none => rfl
      | some e => exact absurd (List.mem_map_of_mem (Entries.mem_of_find? hin)) out
    rw [Document.entryFor?, none, hf]
    rfl

/-- What an edge of a node comes from is as the entry of the address says. -/
theorem Wired.supplier (h : w.Wired d n ss) {r : StreamAddress} {e : Incoming}
    (hr : w.Leads r e) : ∃ x, d.entryFor? r.node = some x ∧ w.Stands x e.supply.node :=
  h.stands hr.place

/-! ## 4. Twins and numbers -/

/-- Nodes of entries with as many addresses have their labels in one order. -/
theorem Stands.labels_eq (ha : w.Stands a i) (hb : w.Stands b j)
    (length : a.inputs.length = b.inputs.length) : w.graph.labels i = w.graph.labels j := by
  rw [ha.labels, hb.labels, length]

/-- **Twins have one number.** The induction is on the place of the first: alike addresses lead to
nodes of twins, which lie below. -/
theorem Wired.hash_eq_of_twins (h : w.Wired d n ss) (twins : d.Twins a b) (ha : w.Stands a i)
    (hb : w.Stands b j) (hi : n ≤ i ∧ i < w.graph.nodes.size)
    (hj : n ≤ j ∧ j < w.graph.nodes.size) : w.graph.hash i = w.graph.hash j := by
  induction i using Nat.strong_induction_on generalizing a b j with
  | h i ih =>
    have alike := twins.alike
    have labels : (w.graph.incoming i).map (·.label) = (w.graph.incoming j).map (·.label) :=
      ha.labels_eq hb alike.length_eq
    have terms : (w.graph.incoming i).map w.graph.term =
        (w.graph.incoming j).map w.graph.term := by
      rw [← List.forall₂_eq_eq_eq, List.forall₂_map_left_iff, List.forall₂_map_right_iff]
        at labels ⊢
      refine labels.mp ?_ (forall₂_comp (forall₂_and_mem ha.edges).flip
        (forall₂_comp alike (forall₂_and_mem hb.edges)))
      rintro e e' label ⟨r, ⟨⟨_, he⟩, hr⟩, s, same, ⟨_, he'⟩, hs⟩
      obtain ⟨x, hx, standsX⟩ := h.supplier hr
      obtain ⟨y, hy, standsY⟩ := h.supplier hs
      obtain ⟨low, below, _⟩ := h.reflects.below i hi.1 hi.2 e he
      obtain ⟨low', below', _⟩ := h.reflects.below j hj.1 hj.2 e' he'
      have suppliers := same.suppliers
      rw [hx, hy] at suppliers
      have hash : w.graph.hash e.supply.node = w.graph.hash e'.supply.node := by
        cases suppliers with
        | some twins =>
          exact ih _ below twins standsX standsY ⟨low, Nat.lt_trans below hi.2⟩
            ⟨low', Nat.lt_trans below' hj.2⟩
      obtain ⟨output, selector⟩ := Prod.mk.inj (hr.taken.symm.trans (same.taken.trans hs.taken))
      rw [Graph.term, Graph.term, label, hash, output, selector]
    cases twins with
    | node kind name params path =>
      have names : a.params.names.Nodup := ha.params ▸ (h.numbered i hi.1 hi.2).names
      rw [(h.numbered i hi.1 hi.2).number, (h.numbered j hj.1 hj.2).number, ha.kind, hb.kind,
        ha.name, hb.name, ha.params, hb.params, ha.path, hb.path, kind, name, path, terms]
      exact Identity.node_congr params names (.refl _)

/-- Unless digests collide, nodes of one number have one row of terms: the same terms, with their
labels in one order. -/
theorem Wired.terms_eq (h : w.Wired d n ss) {ts : List NodeId} (hc : w.graph.Collisionless ts)
    (inside : ∀ i, w.graph.Above ts i → n ≤ i ∧ i < w.graph.nodes.size)
    (ha : w.Stands a i) (hb : w.Stands b j) (hi : w.graph.Above ts i) (hj : w.graph.Above ts j)
    (hij : w.graph.hash i = w.graph.hash j) :
    (w.graph.incoming i).map w.graph.term = (w.graph.incoming j).map w.graph.term := by
  obtain ⟨low, high⟩ := inside i hi
  have fed := (hc i j hi hj hij).fed
  have length : a.inputs.length = b.inputs.length := by
    have edges := fed.length_eq
    rw [List.length_map, List.length_map] at edges
    rw [ha.edges.length_eq, hb.edges.length_eq, edges]
  exact (h.numbered i low high).map_incoming_eq w.graph.term (·.label) (fun _ => rfl) fed
    (ha.labels_eq hb length)

/-- **Unless digests collide, nodes of one number are twins.** The induction is on the place of the
first: terms that are equal have suppliers of one number, which lie below. -/
theorem Wired.twins_of_hash_eq (h : w.Wired d n ss) {ts : List NodeId}
    (hc : w.graph.Collisionless ts)
    (inside : ∀ i, w.graph.Above ts i → n ≤ i ∧ i < w.graph.nodes.size)
    (ha : w.Stands a i) (hb : w.Stands b j) (hi : w.graph.Above ts i) (hj : w.graph.Above ts j)
    (hij : w.graph.hash i = w.graph.hash j) : d.Twins a b := by
  induction i using Nat.strong_induction_on generalizing a b j with
  | h i ih =>
    obtain ⟨low, high⟩ := inside i hi
    have same := hc i j hi hj hij
    have terms := h.terms_eq hc inside ha hb hi hj hij
    rw [← List.forall₂_eq_eq_eq, List.forall₂_map_left_iff, List.forall₂_map_right_iff] at terms
    have alike : List.Forall₂ d.Alike a.inputs b.inputs := by
      refine (forall₂_comp (forall₂_and_mem ha.edges)
        (forall₂_comp terms (forall₂_and_mem hb.edges).flip)).imp ?_
      rintro r s ⟨e, ⟨⟨_, he⟩, hr⟩, e', term, ⟨_, he'⟩, hs⟩
      obtain ⟨_, hash, output, selector⟩ := Identity.Term.mk.inj term
      obtain ⟨x, hx, standsX⟩ := h.supplier hr
      obtain ⟨y, hy, standsY⟩ := h.supplier hs
      have below := (h.reflects.below i low high e he).2.1
      have twins := ih _ below standsX standsY (.feeds hi he) (.feeds hj he') hash
      refine ⟨?_, ?_⟩
      · rw [hr.taken, hs.taken, output, selector]
      · rw [hx, hy]
        exact .some twins
    refine Document.twins_of_alike ?_ ?_ ?_ ?_ alike
    · rw [← ha.kind, ← hb.kind, same.kind]
    · rw [← ha.name, ← hb.name, same.name]
    · rw [← ha.params, ← hb.params]
      exact same.params
    · rw [← ha.path, ← hb.path, same.path]

end Wiring

end FilterGraph
