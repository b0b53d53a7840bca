import FilterGraph.Proofs.Denotation
import FilterGraph.Proofs.Payloads

/-!
# Nodes of one number

What two nodes of one number have in common, and what they do not.

* `Graph.texts`: the texts whose digests a node's number adds up; `Graph.NoCollision`: the sums of
  two nodes agree only where the texts do. That digests of different texts differ is not enough
  (`Identity.exists_total_collision`);
* `Built.sameNode`: nodes of one number are the same node, up to the order of options and of edges;
* `Graph.RenderedAs`: how the fragments of two nodes compare;
* **`Built.reordered`**: fragments of nodes of one number are the same up to the order of options
  and of references;
* **`Built.identical`**: they are identical where options and labels stand in one order, and labels
  do where the nodes were built from rows of streams (`SameNode.labels_eq_of_builtFrom`).
-/

namespace FilterGraph

/-! ## 1. Numbers and texts -/

namespace Graph

variable {g : Graph} {i j : NodeId}

/-- The texts whose digests the number of a node adds up. -/
def texts (g : Graph) (i : NodeId) : List String :=
  (Identity.payloads (g.node i).kind (g.node i).name (g.node i).params (g.node i).path
    ((g.incoming i).map g.term)).map Json.canonical

/-- Two nodes have one sum of digests only if they have the same texts. -/
def NoCollision (g : Graph) (i j : NodeId) : Prop :=
  Identity.total Digest.ofText (g.texts i) = Identity.total Digest.ofText (g.texts j) →
    (g.texts i).Perm (g.texts j)

theorem noCollision_refl (g : Graph) (i : NodeId) : g.NoCollision i i := fun _ => .refl _

theorem Numbered.hash_eq_total (h : g.Numbered i) :
    g.hash i = Identity.total Digest.ofText (g.texts i) :=
  h.number.trans (Identity.node_eq_total Digest.ofText _ _ _ _ _)

/-- Nodes with the same texts have one number. -/
theorem Built.hash_eq_of_perm (hb : g.Built) (hi : i < g.nodes.size) (hj : j < g.nodes.size)
    (h : (g.texts i).Perm (g.texts j)) : g.hash i = g.hash j := by
  rw [(hb.numbered hi).hash_eq_total, (hb.numbered hj).hash_eq_total]
  exact Identity.total_perm Digest.ofText h

/-- **Nodes of one number are the same node**, if their sums do not coincide. -/
theorem Built.sameNode (hb : g.Built) (hi : i < g.nodes.size) (hj : j < g.nodes.size)
    (hn : g.NoCollision i j) (h : g.hash i = g.hash j) : g.SameNode i j := by
  rw [(hb.numbered hi).hash_eq_total, (hb.numbered hj).hash_eq_total] at h
  obtain ⟨kind, name, params, path, fed⟩ := Identity.same_of_payloads_perm (hn h)
  exact ⟨kind, name, params, path, fed⟩

/-- **Without collisions among them, nodes above the terminals are collisionless.** -/
theorem Built.collisionless {ts : List NodeId} (hb : g.Built)
    (hts : ∀ t ∈ ts, t < g.nodes.size)
    (hn : ∀ i j, g.Above ts i → g.Above ts j → g.NoCollision i j) : g.Collisionless ts := by
  have inside : ∀ i, g.Above ts i → i < g.nodes.size := by
    intro i hi
    induction hi with
    | terminal ht => exact hts _ ht
    | feeds _ he ih => exact Nat.lt_trans ((hb.numbered ih).suppliers _ he) ih
  exact fun i j hi hj hij => hb.sameNode (inside i hi) (inside j hj) (hn i j hi hj) hij

/-- Nothing collides that goes into the numbers of two nodes and of what feeds them by edges of one
label. -/
structure Uncollided (g : Graph) (i j : NodeId) : Prop where
  nodes : g.NoCollision i j
  suppliers : ∀ e ∈ g.incoming i, ∀ e' ∈ g.incoming j, e.label = e'.label →
    g.NoCollision e.supply.node e'.supply.node

/-- Two nodes have their options and their labels in the same order. -/
structure SameOrder (g : Graph) (i j : NodeId) : Prop where
  options : (g.node i).params.names = (g.node j).params.names
  labels : g.labels i = g.labels j

/-- An edge as a reference shows it: its term, and the kind of its supplier. -/
def origin (g : Graph) (e : Incoming) : Identity.Term × NodeKind :=
  (g.term e, (g.node e.supply.node).kind)

end Graph

theorem Params.eq_of_sameAs {p q : Params} (h : p.SameAs q) (hn : p.names = q.names)
    (nodup : p.names.Nodup) : p = q := by
  cases p with
  | options as =>
    cases q with
    | options bs => exact congrArg Params.options (eq_of_perm_of_map_eq h hn nodup)
    | literals bs => exact h.elim
  | literals as =>
    cases q with
    | options bs => exact h.elim
    | literals bs => exact congrArg Params.literals h

namespace Graph

variable {g : Graph} {i j : NodeId}

/-- **The edges of nodes of one number come from the same origins**, in some order. -/
theorem Built.origins_perm (hb : g.Built) (hi : i < g.nodes.size) (hj : j < g.nodes.size)
    (hn : g.Uncollided i j) (h : g.hash i = g.hash j) :
    ((g.incoming i).map g.origin).Perm ((g.incoming j).map g.origin) := by
  obtain ⟨m, hm, perm⟩ := exists_perm_of_map_perm (hb.sameNode hi hj hn.nodes h).fed
  have row : (g.incoming i).map g.origin = m.map g.origin := by
    refine map_eq_of_forall₂ (forall₂_and_mem hm) fun e _ e' hee => ?_
    obtain ⟨⟨he, hm'⟩, term⟩ := hee
    have he' := perm.mem_iff.mp hm'
    have label : e.label = e'.label := congrArg Identity.Term.label term
    have supplier : g.hash e.supply.node = g.hash e'.supply.node :=
      congrArg Identity.Term.supplier term
    have below := Nat.lt_trans ((hb.numbered hi).suppliers e he) hi
    have below' := Nat.lt_trans ((hb.numbered hj).suppliers e' he') hj
    have same := hb.sameNode below below' (hn.suppliers e he e' he' label) supplier
    exact Prod.ext term same.kind
  exact row ▸ perm.map g.origin

/-- What is read off the edges of two nodes stands in one order where the labels do. -/
theorem Numbered.map_incoming_eq {γ : Type} (h : g.Numbered i) (f : Incoming → γ)
    (label : γ → Label) (hf : ∀ e, label (f e) = e.label)
    (perm : ((g.incoming i).map f).Perm ((g.incoming j).map f)) (order : g.labels i = g.labels j) :
    (g.incoming i).map f = (g.incoming j).map f := by
  have row : ∀ k, ((g.incoming k).map f).map label = g.labels k := by
    intro k
    rw [List.map_map]
    exact List.map_congr_left fun e _ => hf e
  refine eq_of_perm_of_map_eq (p := label) perm ?_ ?_
  · rw [row, row, order]
  · rw [row]
    exact h.labels

/-! ## 2. Fragments -/

end Graph

/-- Inputs that differ at most in the order of their options. -/
def InputFragment.Reordered (a b : InputFragment) : Prop :=
  a.params.SameAs b.params ∧ a.path = b.path

/-- Statements that differ at most in the order of their references and of the options of their
filter. -/
def Statement.Reordered (a b : Statement) : Prop :=
  a.inputs.Perm b.inputs ∧
  (∃ name p q, p.SameAs q ∧ a.expression = filterExpression name p ∧
    b.expression = filterExpression name q) ∧
  a.pads = b.pads

/-- Outputs that differ at most in the order of their references and options. -/
def OutputFragment.Reordered (a b : OutputFragment) : Prop :=
  a.references.Perm b.references ∧ a.params.SameAs b.params ∧ a.path = b.path

/-- The reference to the output that an edge takes, if this has a name. -/
def StreamNames.reference? (names : StreamNames) (final : Bool)
    (o : Identity.Term × NodeKind) : Option Reference :=
  (names.name? o.1.supplier o.1.supplierLabel).map fun name =>
    ⟨name, o.1.selector, final && o.2 = .source⟩

namespace Graph

variable {g : Graph} {i j : NodeId}

/-- The fragments of two nodes compare in three ways: as inputs, as statements and as outputs, with
whatever names and in whatever sort. Both can be written or neither can. -/
structure RenderedAs (g : Graph) (inputs : InputFragment → InputFragment → Prop)
    (statements : Statement → Statement → Prop) (outputs : OutputFragment → OutputFragment → Prop)
    (i j : NodeId) : Prop where
  input : inputs (g.inputFragment i) (g.inputFragment j)
  statement : ∀ s names, Option.Rel statements (g.statement s names i).toOption
    (g.statement s names j).toOption
  output : ∀ names, Option.Rel outputs (g.outputFragment names i).toOption
    (g.outputFragment names j).toOption

theorem toOption_reference (names : StreamNames) (final : Bool) (e : Incoming) :
    (g.reference names final e).toOption = names.reference? final (g.origin e) := by
  unfold reference streamName StreamNames.reference? origin term
  cases names.name? (g.hash e.supply.node) e.supply.label <;> rfl

/-- **The references of a node depend on the origins of its edges only.** -/
theorem toOption_references (names : StreamNames) (final : Bool) (i : NodeId) :
    ((g.incoming i).mapM (g.reference names final)).toOption =
      ((g.incoming i).map g.origin).mapM (names.reference? final) := by
  rw [toOption_mapM, List.mapM_map]
  exact congrArg (List.mapM · (g.incoming i)) (funext (toOption_reference names final))

/-- The pads of a filter depend on its number only. -/
theorem toOption_pads (s : Sorted) (names : StreamNames) (h : g.hash i = g.hash j) :
    ((g.outgoingEdges s i).mapM fun e => g.pad names i e.1).toOption =
      ((g.outgoingEdges s j).mapM fun e => g.pad names j e.1).toOption := by
  have edges : g.outgoingEdges s i = g.outgoingEdges s j := by
    rw [outgoingEdges, outgoingEdges, outgoing, outgoing, h]
  have pads : ∀ l, (g.pad names i l).toOption = (g.pad names j l).toOption := by
    intro l
    unfold pad streamName
    rw [h]
    cases names.name? (g.hash j) l <;> rfl
  rw [toOption_mapM, toOption_mapM, edges]
  exact congrArg (List.mapM · _) (funext fun e => pads e.1)

theorem toOption_statement (s : Sorted) (names : StreamNames) (i : NodeId) :
    (g.statement s names i).toOption =
      (((g.incoming i).map g.origin).mapM (names.reference? false)).bind fun inputs =>
        ((g.outgoingEdges s i).mapM fun e => g.pad names i e.1).toOption.map fun pads =>
          ⟨inputs, filterExpression (g.node i).name (g.node i).params, pads⟩ := by
  rw [← toOption_references]
  unfold statement
  cases (g.incoming i).mapM (g.reference names false) with
  | error e => rfl
  | ok inputs => cases (g.outgoingEdges s i).mapM fun e => g.pad names i e.1 <;> rfl

theorem toOption_outputFragment (names : StreamNames) (i : NodeId) :
    (g.outputFragment names i).toOption =
      (((g.incoming i).map g.origin).mapM (names.reference? true)).map fun references =>
        ⟨references, (g.node i).params, (g.node i).path⟩ := by
  rw [← toOption_references]
  unfold outputFragment
  cases (g.incoming i).mapM (g.reference names true) <;> rfl

/-! ## 3. Nodes of one number -/

/-- **Nodes of one number are rendered alike**, up to the order of references and options. -/
theorem Built.reordered (hb : g.Built) (hi : i < g.nodes.size) (hj : j < g.nodes.size)
    (hn : g.Uncollided i j) (h : g.hash i = g.hash j) :
    g.RenderedAs InputFragment.Reordered Statement.Reordered OutputFragment.Reordered i j := by
  have same := hb.sameNode hi hj hn.nodes h
  have origins := hb.origins_perm hi hj hn h
  refine ⟨⟨same.params, same.path⟩, fun s names => ?_, fun names => ?_⟩
  · rw [toOption_statement, toOption_statement, toOption_pads s names h]
    refine rel_bind (mapM_rel_of_perm origins) fun inputs inputs' perm => ?_
    refine rel_map (rel_of_eq rfl) fun pads pads' hpads => ?_
    exact ⟨perm, ⟨_, _, _, same.params, rfl, by rw [same.name]⟩, hpads⟩
  · rw [toOption_outputFragment, toOption_outputFragment]
    exact rel_map (mapM_rel_of_perm origins) fun _ _ perm => ⟨perm, same.params, same.path⟩

theorem Built.params_eq (hb : g.Built) (hi : i < g.nodes.size) (same : g.SameNode i j)
    (ho : g.SameOrder i j) : (g.node i).params = (g.node j).params :=
  Params.eq_of_sameAs same.params ho.options (hb.numbered hi).names

/-- **Nodes of one number are rendered identically** where their options and their labels stand in
the same order. -/
theorem Built.identical (hb : g.Built) (hi : i < g.nodes.size) (hj : j < g.nodes.size)
    (hn : g.Uncollided i j) (h : g.hash i = g.hash j) (ho : g.SameOrder i j) :
    g.RenderedAs (· = ·) (· = ·) (· = ·) i j := by
  have same := hb.sameNode hi hj hn.nodes h
  have params := hb.params_eq hi same ho
  have origins := (hb.numbered hi).map_incoming_eq g.origin (·.1.label) (fun _ => rfl)
    (hb.origins_perm hi hj hn h) ho.labels
  refine ⟨?_, fun s names => rel_of_eq ?_, fun names => rel_of_eq ?_⟩
  · rw [inputFragment, inputFragment, params, same.path]
  · rw [toOption_statement, toOption_statement, toOption_pads s names h, origins, params, same.name]
  · rw [toOption_outputFragment, toOption_outputFragment, origins, params, same.path]

/-! ## 4. Rows of streams -/

end Graph

/-- The edges of two rows of streams have their labels in the same order, if they have the same
labels. -/
theorem Feeds.labels_eq_of_perm {p q : Feeds}
    (h : (p.edges.map (·.label)).Perm (q.edges.map (·.label))) :
    p.edges.map (·.label) = q.edges.map (·.label) := by
  -- a lone stream has the empty label, which is no number
  have lone : ∀ (s : Stream) (ss : List Stream), ¬ ((Feeds.one s).edges.map (·.label)).Perm
      ((Feeds.many ss).edges.map (·.label)) := by
    intro s ss h
    rw [labels_many] at h
    obtain ⟨k, _, hk⟩ := List.mem_map.mp (h.mem_iff.mp List.mem_cons_self)
    exact Text.repr_ne_nil k (congrArg String.toList hk)
  cases p with
  | one s =>
    cases q with
    | one s' => rfl
    | many ss' => exact absurd h (lone s ss')
  | many ss =>
    cases q with
    | one s' => exact absurd h.symm (lone s' ss)
    | many ss' =>
      rw [labels_many, labels_many] at h ⊢
      have length : ss.length = ss'.length := by simpa using h.length_eq
      rw [length]

namespace Graph

variable {g : Graph} {i j : NodeId}

/-- **Nodes that were built from rows of streams have their labels in the same order**, if they have
the same edges. -/
theorem SameNode.labels_eq_of_builtFrom (same : g.SameNode i j) {p q : Feeds}
    (hp : g.BuiltFrom i p) (hq : g.BuiltFrom j q) : g.labels i = g.labels j := by
  have perm : (g.labels i).Perm (g.labels j) := by
    have row : ∀ k, ((g.incoming k).map g.term).map Identity.Term.label = g.labels k := fun _ =>
      List.map_map
    rw [← row, ← row]
    exact same.fed.map Identity.Term.label
  rw [labels, labels, hp.incoming_eq, hq.incoming_eq] at perm ⊢
  exact Feeds.labels_eq_of_perm perm

end Graph

end FilterGraph
