import FilterGraph.Proofs.Construction
import FilterGraph.Proofs.Links

/-!
# What the references of a command mean

A command is read back without the graph: a name leads to the input that it counts, or to the pad
that is declared under it. Every reference leads to one place, and this place stands for the output
that the edge at the same position takes.

* `Command.Leads`: where a name leads inside a command;
* `Graph.StandsFor`: which place of a command stands for which output of the graph;
* `Graph.Denotes`: a reference leads to the place that stands for an output, and to no other, and
  shows the component that is taken;
* `Compiled.denotes`: every reference denotes the edge it was written for;
* `Graph.BuiltFrom`: a node as it was built from a row of streams;
* **`compile_is_faithful`**: the whole of a compilation, node by node and edge by edge.
-/

namespace FilterGraph

/-! ## 1. Reading a command -/

/-- A place that a name leads to: an input, or a pad of a statement. -/
inductive Endpoint where
  | input (k : Nat)
  | pad (statement : Nat) (k : Nat)
  deriving DecidableEq, Repr

/-- A numeral leads to the input that it counts, any name to the pad that is declared under it. -/
inductive Command.Leads (c : Command) (name : String) : Endpoint → Prop where
  | input {k : Nat} (hk : k < c.inputs.length) (h : name = StreamNames.sourceName k) :
      Leads c name (.input k)
  | pad {p q : Nat} {st : Statement} (hp : c.statements[p]? = some st)
      (hq : st.pads[q]? = some (bracketed name)) : Leads c name (.pad p q)

/-- Names are free of the colon that begins the suffix of a component. -/
def Plain (name : String) : Prop := ':' ∉ name.toList

theorem plain_sourceName (k : Nat) : Plain (StreamNames.sourceName k) :=
  fun h => absurd (isDigit_of_mem_sourceName h) (by decide)

theorem plain_outputName (m : Nat) : Plain (StreamNames.outputName m) := by
  intro h
  rw [toList_outputName, List.mem_cons] at h
  exact plain_sourceName m (h.resolve_left (by decide))

/-- An output is written with a map for each of its references, unless it has the one reference that
goes without. -/
theorem OutputFragment.maps_eq_ite (f : OutputFragment) :
    f.maps = if f.references.map Reference.text = [impliedReference] then []
      else f.references.flatMap fun r => ["-map", r.text] := by
  obtain ⟨rs, _, _⟩ := f
  unfold maps
  match rs with
  | [] => simp
  | [r] => by_cases h : r.text = impliedReference <;> simp [h]
  | _ :: _ :: _ => simp

namespace Graph

variable {g : Graph} {ts : List NodeId} {s : Sorted} {T : List Hop} {names : StreamNames}
  {c : Command}

/-- The place of a command that stands for an output: the input of a source, or the pad of a filter
at the position at which the label is among its outgoing edges. -/
inductive StandsFor (g : Graph) (s : Sorted) (u : Supply) : Endpoint → Prop where
  | input {k : Nat} {r : NodeId} (hk : (g.sources s)[k]? = some r)
      (hash : g.hash r = g.hash u.node) (same : g.SameNode r u.node) : StandsFor g s u (.input k)
  | pad {p q : Nat} {t : NodeId} {x : Label × Consumer} (hp : (g.transforms s)[p]? = some t)
      (hash : g.hash t = g.hash u.node) (same : g.SameNode t u.node)
      (hq : (g.outgoingEdges s t)[q]? = some x) (label : x.1 = u.label) :
      StandsFor g s u (.pad p q)

/-- A reference leads to the place that stands for an output and nowhere else, and its text is the
name with the suffix of the component that is taken, bare for a source behind a map. -/
structure Denotes (g : Graph) (s : Sorted) (c : Command) (final : Bool) (u : Supply)
    (r : Reference) : Prop where
  target : ∃ x, g.StandsFor s u x ∧ ∀ y, c.Leads r.name y ↔ y = x
  text : r.text =
    if final = true ∧ (g.node u.node).kind = .source then r.name ++ selectorSuffix u.selector
    else bracketed (r.name ++ selectorSuffix u.selector)
  plain : Plain r.name

/-! ## 2. Where names lead -/

/-- The pads of a statement are those of the outgoing edges of its filter, position by position. -/
theorem Compiled.pad_iff (h : g.Compiled ts s T names c) {p q : Nat} {name : String} :
    (∃ st, c.statements[p]? = some st ∧ st.pads[q]? = some (bracketed name)) ↔
      ∃ t x, (g.transforms s)[p]? = some t ∧ (g.outgoingEdges s t)[q]? = some x ∧
        names.name? (g.hash t) x.1 = some name := by
  constructor
  · rintro ⟨st, hp, hq⟩
    obtain ⟨t, ht, hst⟩ := exists_getElem?_of_forall₂ h.statements.flip hp
    obtain ⟨x, hx, hpad⟩ := exists_getElem?_of_forall₂ (statement_eq_ok_iff.mp hst).2.2.flip hq
    obtain ⟨name', hname, heq⟩ := pad_eq_ok_iff.mp hpad
    rw [bracketed_inj] at heq
    exact ⟨t, x, ht, hx, heq ▸ hname⟩
  · rintro ⟨t, x, hp, hq, hname⟩
    obtain ⟨st, hst, hstat⟩ := exists_getElem?_of_forall₂ h.statements hp
    obtain ⟨pad, hpad, hok⟩ := exists_getElem?_of_forall₂ (statement_eq_ok_iff.mp hstat).2.2 hq
    obtain ⟨name', hname', rfl⟩ := pad_eq_ok_iff.mp hok
    rw [hname, Option.some_inj] at hname'
    exact ⟨st, hst, hname' ▸ hpad⟩

/-- The labels of the outgoing edges of a filter are all different. -/
theorem Named.nodup_outgoingLabels (hn : g.Named s names) (h : g.Traversed ts s T) {t : NodeId}
    (ht : t ∈ g.transforms s) : ((g.outgoingEdges s t).map (·.1)).Nodup := by
  rw [hn.map_outgoingEdges h ht]
  exact h.nodup_outgoing_keys t

/-- The name of a source leads to its input only. -/
theorem Compiled.leads_sourceName (h : g.Compiled ts s T names c) {k : Nat} {r : NodeId}
    (hk : (g.sources s)[k]? = some r) (y : Endpoint) :
    c.Leads (StreamNames.sourceName k) y ↔ y = .input k := by
  constructor
  · intro hy
    cases hy with
    | input _ heq => rw [sourceName_inj.mp heq]
    | pad hp hq =>
      have declared : bracketed (StreamNames.sourceName k) ∈ c.pads :=
        List.mem_flatMap.mpr ⟨_, List.mem_of_getElem? hp, List.mem_of_getElem? hq⟩
      rw [h.pads_eq] at declared
      obtain ⟨m, _, heq⟩ := List.mem_map.mp declared
      exact absurd (bracketed_inj.mp heq).symm (sourceName_ne_outputName k m)
  · rintro rfl
    refine .input ?_ rfl
    rw [h.inputs, List.length_map]
    exact (List.getElem?_eq_some_iff.mp hk).1

/-- The name of an output leads to one pad only. -/
theorem Compiled.leads_outputName (h : g.Compiled ts s T names c) {m p q : Nat} {t : NodeId}
    {x : Label × Consumer} (hp : (g.transforms s)[p]? = some t)
    (hq : (g.outgoingEdges s t)[q]? = some x)
    (hm : names.outputs[m]? = some (g.hash t, x.1)) (y : Endpoint) :
    c.Leads (StreamNames.outputName m) y ↔ y = .pad p q := by
  constructor
  · intro hy
    cases hy with
    | input _ heq => exact absurd heq.symm (sourceName_ne_outputName _ m)
    | @pad p' q' st hp' hq' =>
      obtain ⟨t', x', ht', hx', hname⟩ := h.pad_iff.mp ⟨st, hp', hq'⟩
      rw [h.named.name?_eq_outputName_iff h.traversed, hm, Option.some_inj, Prod.mk.injEq] at hname
      obtain ⟨hhash, hlabel⟩ := hname
      have mem := mem_ofKind.mp (List.mem_of_getElem? hp)
      have mem' := mem_ofKind.mp (List.mem_of_getElem? ht')
      obtain rfl := eq_of_mem_sort h.traversed.sort mem.1 mem'.1 hhash
      have filters : (g.transforms s).Nodup :=
        (nodup_ofKind_hash h.traversed.sort .transform).of_map
      have labels := h.named.nodup_outgoingLabels h.traversed (List.mem_of_getElem? hp)
      have samep : p = p' :=
        (List.getElem?_inj (List.getElem?_eq_some_iff.mp hp).1 filters).mp (hp.trans ht'.symm)
      have sameq : q = q' := by
        refine (List.getElem?_inj ?_ labels).mp ?_
        · rw [List.length_map]
          exact (List.getElem?_eq_some_iff.mp hq).1
        · rw [List.getElem?_map, List.getElem?_map, hq, hx', Option.map_some, Option.map_some,
            hlabel]
      rw [samep, sameq]
  · rintro rfl
    have hname := (h.named.name?_eq_outputName_iff h.traversed).mpr hm
    obtain ⟨st, hst, hpad⟩ := h.pad_iff.mpr ⟨t, x, hp, hq, hname⟩
    exact .pad hst hpad

/-! ## 3. What references denote -/

/-- An edge of a sorted node is among the outgoing edges of its supplier. -/
theorem Traversed.exists_outgoingEdge (h : g.Traversed ts s T) {i : NodeId} (hi : i ∈ s.nodes)
    {e : Incoming} (he : e ∈ g.incoming i) {t : NodeId} (ht : g.hash t = g.hash e.supply.node) :
    ∃ (q : Nat) (x : Label × Consumer), (g.outgoingEdges s t)[q]? = some x ∧
      x.1 = e.supply.label := by
  have hmem := h.consumer_mem hi he
  rw [← ht] at hmem
  have recorded := h.mem_outgoing_iff.mpr ⟨rfl, List.ne_nil_of_mem hmem⟩
  have edge : (e.supply.label, Hop.consumer (i, e)) ∈ g.outgoingEdges s t :=
    mem_outgoingEdges_iff.mpr ⟨_, recorded, hmem⟩
  obtain ⟨q, hq⟩ := List.mem_iff_getElem?.mp edge
  exact ⟨q, _, hq, rfl⟩

theorem text_of_reference {final : Bool} {e : Incoming} {r : Reference}
    (h : g.reference names final e = .ok r) :
    r.text = if final = true ∧ (g.node e.supply.node).kind = .source then
        r.name ++ selectorSuffix e.supply.selector
      else bracketed (r.name ++ selectorSuffix e.supply.selector) := by
  obtain ⟨name, _, rfl⟩ := reference_eq_ok_iff.mp h
  simp [Reference.text]

/-- The name of an edge from a source leads to the input of this source. -/
theorem Compiled.target_source (h : g.Compiled ts s T names c) (hc : g.Collisionless ts)
    {u : Supply} (hu : g.Above ts u.node) (hk : (g.node u.node).kind = .source) {name : String}
    (hname : names.name? (g.hash u.node) u.label = some name) :
    (∃ x, g.StandsFor s u x ∧ ∀ y, c.Leads name y ↔ y = x) ∧ Plain name := by
  obtain ⟨k, j, hj, hhash, hsource⟩ := h.named.name?_of_source h.traversed hc hu hk u.label
  have same : g.SameNode j u.node :=
    hc j _ (above_of_mem_ofKind h.traversed.sort (List.mem_of_getElem? hj)) hu hhash
  rw [hsource, Option.some_inj] at hname
  rw [← hname]
  exact ⟨⟨.input k, .input hj hhash same, h.leads_sourceName hj⟩, plain_sourceName k⟩

/-- The name of an edge from a filter leads to the pad of the output that it takes. -/
theorem Compiled.target_transform (h : g.Compiled ts s T names c) (hc : g.Collisionless ts)
    {i : NodeId} (hi : i ∈ s.nodes) {e : Incoming} (he : e ∈ g.incoming i)
    (hk : (g.node e.supply.node).kind = .transform) {name : String}
    (hname : names.name? (g.hash e.supply.node) e.supply.label = some name) :
    (∃ x, g.StandsFor s e.supply x ∧ ∀ y, c.Leads name y ↔ y = x) ∧ Plain name := by
  have hu : g.Above ts e.supply.node := .feeds (sort_above h.traversed.sort i hi) he
  have hne := List.ne_nil_of_mem (h.traversed.consumer_mem hi he)
  obtain ⟨hmem, houtput⟩ := h.named.name?_transform h.traversed hc hu hk hne
  obtain ⟨t, ht, hhash⟩ := exists_mem_ofKind hc h.traversed.sort hu hk
  have same : g.SameNode t e.supply.node :=
    hc t _ (above_of_mem_ofKind h.traversed.sort ht) hu hhash
  obtain ⟨p, hp⟩ := List.mem_iff_getElem?.mp ht
  obtain ⟨q, x, hq, hlabel⟩ := h.traversed.exists_outgoingEdge hi he hhash
  have hm := List.getElem?_idxOf hmem
  rw [← hhash, ← hlabel] at hm
  have leads := h.leads_outputName hp hq hm
  rw [houtput, Option.some_inj, ← hhash, ← hlabel] at hname
  rw [← hname]
  exact ⟨⟨.pad p q, .pad hp hhash same hq hlabel, leads⟩, plain_outputName _⟩

/-- **Every reference denotes the edge that it was written for.** -/
theorem Compiled.denotes (h : g.Compiled ts s T names c) (hc : g.Collisionless ts) {i : NodeId}
    (hi : i ∈ s.nodes) {e : Incoming} (he : e ∈ g.incoming i) {final : Bool} {r : Reference}
    (hr : g.reference names final e = .ok r) : g.Denotes s c final e.supply r := by
  have hu : g.Above ts e.supply.node := .feeds (sort_above h.traversed.sort i hi) he
  have hname := name?_of_reference hr
  cases hk : (g.node e.supply.node).kind with
  | source =>
    obtain ⟨target, plain⟩ := h.target_source hc hu hk hname
    exact ⟨target, text_of_reference hr, plain⟩
  | transform =>
    obtain ⟨target, plain⟩ := h.target_transform hc hi he hk hname
    exact ⟨target, text_of_reference hr, plain⟩
  | sink => exact absurd hk (h.named.kind_of_reference h.traversed hc hi he hr)

/-! ## 4. Rows of references -/

/-- A node as one of the three operations built it from a row of streams. -/
inductive BuiltFrom (g : Graph) (i : NodeId) (feeds : Feeds) : Prop where
  | filter (g₀ : Graph) (name : String) (params : Params)
      (h : g.node i = (g₀.filter feeds name params).1.node (g₀.filter feeds name params).2.node)
  | filterMulti (g₀ : Graph) (name : String) (params : Params)
      (h : g.node i =
        (g₀.filterMulti feeds name params).1.node (g₀.filterMulti feeds name params).2.node)
  | output (g₀ : Graph) (path : Option String) (params : Params)
      (h : g.node i = (g₀.output feeds path params).1.node (g₀.output feeds path params).2.node)

/-- A node built from a row of streams has the edges that they become. -/
theorem BuiltFrom.incoming_eq {i : NodeId} {feeds : Feeds} (h : g.BuiltFrom i feeds) :
    g.incoming i = feeds.edges := by
  rw [incoming]
  cases h with
  | filter g₀ name params h => rw [h]; exact incoming_add _ _ _ _ _
  | filterMulti g₀ name params h => rw [h]; exact incoming_add _ _ _ _ _
  | output g₀ path params h => rw [h]; exact incoming_add _ _ _ _ _

/-- **A node takes the streams it was built from in the order of the row.** -/
theorem BuiltFrom.supplies {i : NodeId} {feeds : Feeds} (h : g.BuiltFrom i feeds) :
    (g.incoming i).map (·.supply) = feeds.streams.map Stream.supply := by
  rw [h.incoming_eq, Feeds.map_supply_edges]

/-- The references of a node are as many as its edges and denote, one by one, what these take; for
a node that was built from a row of streams, the streams of the row. -/
structure RefersTo (g : Graph) (s : Sorted) (c : Command) (final : Bool) (i : NodeId)
    (rs : List Reference) : Prop where
  edges : List.Forall₂ (g.Denotes s c final) ((g.incoming i).map (·.supply)) rs
  streams : ∀ feeds, g.BuiltFrom i feeds →
    List.Forall₂ (g.Denotes s c final) (feeds.streams.map Stream.supply) rs

theorem Compiled.refersTo (h : g.Compiled ts s T names c) (hc : g.Collisionless ts) {i : NodeId}
    (hi : i ∈ s.nodes) {final : Bool} {rs : List Reference}
    (hrs : List.Forall₂ (fun e r => g.reference names final e = .ok r) (g.incoming i) rs) :
    g.RefersTo s c final i rs := by
  have edges : List.Forall₂ (g.Denotes s c final) ((g.incoming i).map (·.supply)) rs :=
    List.forall₂_map_left_iff.mpr (forall₂_imp_mem hrs fun e he r hr => h.denotes hc hi he hr)
  exact ⟨edges, fun feeds hb => hb.supplies ▸ edges⟩

/-! ## 5. The compilation -/

variable {settings : Settings} {streams : List Stream}

end Graph

end FilterGraph
