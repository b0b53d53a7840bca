import FilterGraph.Proofs.SameEntries

/-!
# Documents whose outputs are used once

An output of a filter can feed one consumer only. What counts as one filter and as one consumer is
decided by numbers: filters that say the same are one, under whatever ids.

* `Graph.sharesOutput_distinct_iff`: of streams on equal nodes one is enough to see what is shared;
  `Graph.shared_iff_places`: an output is shared when it is taken at two places in the rows of edges;
* `Document.Needed`, `Document.Uses`: the entries that the outputs of a document need, and what they
  use; `Document.SingleUse`: an output of a filter and of its twins is used at one place, of one entry
  and of its twins;
* `Wired.sharesOutput_iff`: an output is shared in the graph when the document does not keep this;
* `Document.NamedOnce`, `Document.Distinct`: no output is named twice, and no two ids that are needed
  stand for twins;
* **`single_use_compiles`**: a document compiles when its outputs are used once, and only then; so does
  one that names each output once and in which no two filters say the same.
-/

namespace FilterGraph

/-! ## 1. Shared outputs -/

namespace Graph

variable {g : Graph} {ts ids : List NodeId} {i j : NodeId}

/-- What stands above the places stands above those that are kept, up to its place. -/
theorem exists_above_distinct (hc : g.Coherent ids) (hi : g.Above ids i) :
    ∃ j, g.Above (g.distinct ids) j ∧ g.hash j = g.hash i := by
  have kept : ∀ t ∈ g.distinct ids, t ∈ ids := fun _ => mem_of_mem_distinct
  induction hi with
  | terminal ht =>
    obtain ⟨j, hj, hash⟩ := exists_mem_distinct ht
    exact ⟨j, .terminal hj, hash⟩
  | feeds hi he ih =>
    obtain ⟨j, hj, hash⟩ := ih
    obtain ⟨e', he', term⟩ := hc.counterpart hi (hj.mono kept) hash.symm he
    exact ⟨_, .feeds hj he', congrArg Identity.Term.supplier term⟩

/-- An output that is shared above the places is shared above those that are kept. -/
theorem Shared.distinct (hc : g.Coherent ids) {d : Digest} {l : Label} (h : g.Shared ids d l) :
    g.Shared (g.distinct ids) d l := by
  have kept : ∀ t ∈ g.distinct ids, t ∈ ids := fun _ => mem_of_mem_distinct
  rcases h with ⟨i, hi, two⟩ | ⟨i, j, hi, hj, hij, he, he'⟩
  · obtain ⟨i', hi', hash⟩ := exists_above_distinct hc hi
    exact .inl ⟨i', hi', hc.countP_takes hi (hi'.mono kept) hash.symm d l ▸ two⟩
  · obtain ⟨i', hi', hash⟩ := exists_above_distinct hc hi
    obtain ⟨j', hj', hash'⟩ := exists_above_distinct hc hj
    have count := hc.countP_takes hi (hi'.mono kept) hash.symm d l
    have count' := hc.countP_takes hj (hj'.mono kept) hash'.symm d l
    refine .inr ⟨i', j', hi', hj', fun same => hij ?_, ?_, ?_⟩
    · rw [← hash, ← hash', same]
    · exact List.countP_pos_iff.mp (count ▸ List.countP_pos_iff.mpr he)
    · exact List.countP_pos_iff.mp (count' ▸ List.countP_pos_iff.mpr he')

/-- Places that are dropped for others of their number share no further output. -/
theorem sharesOutput_distinct_iff (hc : g.Collisionless ids) :
    g.SharesOutput (g.distinct ids) ↔ g.SharesOutput ids := by
  have kept : ∀ t ∈ g.distinct ids, t ∈ ids := fun _ => mem_of_mem_distinct
  constructor
  · rintro ⟨t, l, ht, hk, hs⟩
    refine ⟨t, l, ht.mono kept, hk, ?_⟩
    rcases hs with ⟨i, hi, two⟩ | ⟨i, j, hi, hj, rest⟩
    · exact .inl ⟨i, hi.mono kept, two⟩
    · exact .inr ⟨i, j, hi.mono kept, hj.mono kept, rest⟩
  · rintro ⟨t, l, ht, hk, hs⟩
    obtain ⟨t', ht', hash⟩ := exists_above_distinct hc.coherent ht
    refine ⟨t', l, ht', (hc.kind_eq (ht'.mono kept) ht hash).trans hk, ?_⟩
    rw [hash]
    exact hs.distinct hc.coherent

/-- Two members of a list pass a test when members at two places do. -/
theorem two_le_countP_iff {α : Type} {p : α → Bool} {l : List α} :
    2 ≤ l.countP p ↔ ∃ (k m : Nat) (a b : α), k ≠ m ∧ l[k]? = some a ∧ l[m]? = some b ∧
      p a = true ∧ p b = true := by
  induction l with
  | nil => simp
  | cons x l ih =>
    have one : (∃ (m : Nat) (b : α), l[m]? = some b ∧ p b = true) ↔ 1 ≤ l.countP p := by
      rw [Nat.one_le_iff_ne_zero, ← Nat.pos_iff_ne_zero, List.countP_pos_iff]
      simp only [List.mem_iff_getElem?]
      exact ⟨fun ⟨m, b, hb, hp⟩ => ⟨b, ⟨m, hb⟩, hp⟩, fun ⟨b, ⟨m, hb⟩, hp⟩ => ⟨m, b, hb, hp⟩⟩
    rw [List.countP_cons]
    constructor
    · intro h
      by_cases hx : p x = true
      · rw [if_pos hx] at h
        obtain ⟨m, b, hb, hp⟩ := one.mpr (Nat.le_of_succ_le_succ h)
        exact ⟨0, m + 1, x, b, (Nat.succ_ne_zero m).symm, rfl, hb, hx, hp⟩
      · rw [if_neg hx] at h
        obtain ⟨k, m, a, b, hne, ha, hb, hp⟩ := ih.mp h
        exact ⟨k + 1, m + 1, a, b, fun heq => hne (Nat.succ.inj heq), ha, hb, hp⟩
    · rintro ⟨k, m, a, b, hne, ha, hb, hpa, hpb⟩
      cases k with
      | zero =>
        cases ha
        cases m with
        | zero => exact absurd rfl hne
        | succ m =>
          rw [if_pos hpa]
          exact Nat.succ_le_succ (one.mp ⟨m, b, hb, hpb⟩)
      | succ k =>
        cases m with
        | zero =>
          cases hb
          rw [if_pos hpb]
          exact Nat.succ_le_succ (one.mp ⟨k, a, ha, hpa⟩)
        | succ m =>
          have two := ih.mpr ⟨k, m, a, b, fun heq => hne (congrArg Nat.succ heq), ha, hb, hpa, hpb⟩
          exact Nat.le_trans two (Nat.le_add_right _ _)

/-- An edge at a place in the row of a node above the terminals takes an output. -/
structure TakenAt (g : Graph) (ts : List NodeId) (d : Digest) (l : Label) (i : NodeId) (k : Nat) :
    Prop where
  above : g.Above ts i
  edge : ∃ e, (g.incoming i)[k]? = some e ∧ g.takes d l e = true

/-- **An output is shared when it is taken at two places**: in the rows of two different nodes, or at
two places of one row. -/
theorem shared_iff_places (aligned : ∀ i j, g.Above ts i → g.Above ts j → g.hash i = g.hash j →
      (g.incoming i).map g.term = (g.incoming j).map g.term) {d : Digest} {l : Label} :
    g.Shared ts d l ↔ ∃ i k j k', g.TakenAt ts d l i k ∧ g.TakenAt ts d l j k' ∧
      ¬ (g.hash i = g.hash j ∧ k = k') := by
  constructor
  · rintro (⟨i, hi, two⟩ | ⟨i, j, hi, hj, hij, ⟨e, he, takes⟩, e', he', takes'⟩)
    · obtain ⟨k, k', e, e', hne, he, he', takes, takes'⟩ := two_le_countP_iff.mp two
      exact ⟨i, k, i, k', ⟨hi, e, he, takes⟩, ⟨hi, e', he', takes'⟩, fun same => hne same.2⟩
    · obtain ⟨k, hk⟩ := List.mem_iff_getElem?.mp he
      obtain ⟨k', hk'⟩ := List.mem_iff_getElem?.mp he'
      exact ⟨i, k, j, k', ⟨hi, e, hk, takes⟩, ⟨hj, e', hk', takes'⟩, fun same => hij same.1⟩
  · rintro ⟨i, k, j, k', ⟨hi, e, he, takes⟩, ⟨hj, e', he', takes'⟩, hne⟩
    by_cases hij : g.hash i = g.hash j
    · -- the first node has an edge like the second one at the second place
      have row := congrArg (·[k']?) (aligned i j hi hj hij)
      simp only [List.getElem?_map, he', Option.map_some] at row
      obtain ⟨e'', he'', term⟩ := Option.map_eq_some_iff.mp row
      have takes'' : g.takes d l e'' = true := by
        obtain ⟨_, hash, label, _⟩ := Identity.Term.mk.inj term
        rw [takes_iff] at takes' ⊢
        exact ⟨hash.trans takes'.1, label.trans takes'.2⟩
      exact .inl ⟨i, hi, two_le_countP_iff.mpr ⟨k, k', e, e'', fun heq => hne ⟨hij, heq⟩, he, he'',
        takes, takes''⟩⟩
    · exact .inr ⟨i, j, hi, hj, hij, ⟨e, List.mem_of_getElem? he, takes⟩,
        e', List.mem_of_getElem? he', takes'⟩

end Graph

/-! ## 2. Uses in a document -/

namespace Document

variable {d : Document} {a b x y : NodeEntry}

/-- The outputs of a document, and what feeds an entry that is needed. -/
inductive Needed (d : Document) : NodeEntry → Prop where
  | output {o : OutputEntry} (h : o ∈ d.outputs) : Needed d o.asNode
  | supplier {a x : NodeEntry} {r : StreamAddress} (h : Needed d a) (hr : r ∈ a.inputs)
      (hx : d.entryFor? r.node = some x) : Needed d x

/-- With address `k` of its inputs, an entry that is needed takes output `l` of an entry. -/
structure Uses (d : Document) (a : NodeEntry) (k : Nat) (x : NodeEntry) (l : Label) : Prop where
  needed : d.Needed a
  address : ∃ r, a.inputs[k]? = some r ∧ d.entryFor? r.node = some x ∧ r.label = l

/-- An output of a filter, and of what says the same as the filter, is used at one place of one
entry, and of what says the same as this one. -/
def SingleUse (d : Document) : Prop :=
  ∀ a k x b m y l, d.Uses a k x l → d.Uses b m y l → x.kind = .transform → d.Twins x y →
    d.Twins a b ∧ k = m

end Document

namespace Wiring

open FilterGraph.Graph Document

variable {d : Document} {n : Nat} {w : Wiring} {a b : NodeEntry} {i j : NodeId} {ss : List Stream}

/-- The nodes of the outputs are those that were added. -/
theorem Wired.inside (h : w.Wired d n ss) {i : NodeId} (hi : w.graph.Above (ss.map (·.node)) i) :
    n ≤ i ∧ i < w.graph.nodes.size := by
  refine h.reflects.above (fun t ht => ?_) hi
  obtain ⟨s, hs, rfl⟩ := List.mem_map.mp ht
  obtain ⟨o, _, low, high, _⟩ := exists_mem_of_forall₂ h.sinks.flip hs
  exact ⟨low, high⟩

/-- The node of an output is as its entry says. -/
theorem stands_of_sinks {o : OutputEntry} {s : Stream} (h : Sinks n w o s) :
    w.Stands o.asNode s.node := by
  obtain ⟨_, _, _, ss, hy, holds⟩ := h
  exact stands_of_holds hy holds

/-- **What is needed stands above the outputs.** -/
theorem Wired.exists_above (h : w.Wired d n ss) (ha : d.Needed a) :
    ∃ i, w.graph.Above (ss.map (·.node)) i ∧ w.Stands a i := by
  induction ha with
  | output ho =>
    obtain ⟨s, hs, sink⟩ := exists_mem_of_forall₂ h.sinks ho
    exact ⟨s.node, .terminal (List.mem_map_of_mem hs), stands_of_sinks sink⟩
  | supplier _ hr hx ih =>
    obtain ⟨i, hi, stands⟩ := ih
    obtain ⟨e, he, leads⟩ := exists_mem_of_forall₂ stands.edges hr
    obtain ⟨y, hy, standsY⟩ := h.supplier leads
    cases hx.symm.trans hy
    exact ⟨_, .feeds hi he, standsY⟩

/-- **What stands above the outputs is needed.** -/
theorem Wired.exists_needed (h : w.Wired d n ss) (hi : w.graph.Above (ss.map (·.node)) i) :
    ∃ a, d.Needed a ∧ w.Stands a i := by
  induction hi with
  | terminal ht =>
    obtain ⟨s, hs, rfl⟩ := List.mem_map.mp ht
    obtain ⟨o, ho, sink⟩ := exists_mem_of_forall₂ h.sinks.flip hs
    exact ⟨o.asNode, .output ho, stands_of_sinks sink⟩
  | feeds _ he ih =>
    obtain ⟨a, ha, stands⟩ := ih
    obtain ⟨r, hr, leads⟩ := exists_mem_of_forall₂ stands.edges.flip he
    obtain ⟨x, hx, standsX⟩ := h.supplier leads
    exact ⟨x, .supplier ha hr hx, standsX⟩

/-- An edge that takes an output stands for a use of it. -/
theorem Wired.uses_of_takenAt (h : w.Wired d n ss) {c : Digest} {l : Label} {k : Nat}
    (ht : w.graph.TakenAt (ss.map (·.node)) c l i k) :
    ∃ a x u, w.Stands a i ∧ d.Uses a k x l ∧ w.graph.Above (ss.map (·.node)) u ∧ w.Stands x u ∧
      w.graph.hash u = c := by
  obtain ⟨hi, e, he, takes⟩ := ht
  obtain ⟨hash, label⟩ := takes_iff.mp takes
  obtain ⟨a, ha, stands⟩ := h.exists_needed hi
  obtain ⟨r, hr, leads⟩ := exists_getElem?_of_forall₂ stands.edges.flip he
  obtain ⟨x, hx, standsX⟩ := h.supplier leads
  have taken : r.label = e.supply.label := (Prod.mk.inj leads.taken).1
  exact ⟨a, x, e.supply.node, stands, ⟨ha, r, hr, hx, taken.trans label⟩,
    .feeds hi (List.mem_of_getElem? he), standsX, hash⟩

/-- A use of an output stands for an edge that takes it. -/
theorem Wired.takenAt_of_uses (h : w.Wired d n ss) {x : NodeEntry} {l : Label} {k : Nat}
    (hu : d.Uses a k x l) : ∃ i u, w.Stands a i ∧ w.graph.Above (ss.map (·.node)) u ∧ w.Stands x u ∧
      w.graph.TakenAt (ss.map (·.node)) (w.graph.hash u) l i k := by
  obtain ⟨ha, r, hr, hx, label⟩ := hu
  obtain ⟨i, hi, stands⟩ := h.exists_above ha
  obtain ⟨e, he, leads⟩ := exists_getElem?_of_forall₂ stands.edges hr
  obtain ⟨y, hy, standsY⟩ := h.supplier leads
  cases hx.symm.trans hy
  have taken : r.label = e.supply.label := (Prod.mk.inj leads.taken).1
  exact ⟨i, e.supply.node, stands, .feeds hi (List.mem_of_getElem? he), standsY, hi, e, he,
    takes_iff.mpr ⟨rfl, taken.symm.trans label⟩⟩

/-- **An output is shared in the graph when it is not used at one place in the document.** -/
theorem Wired.sharesOutput_iff (h : w.Wired d n ss)
    (hc : w.graph.Collisionless (ss.map (·.node))) :
    w.graph.SharesOutput (ss.map (·.node)) ↔ ¬ d.SingleUse := by
  have aligned : ∀ i j, w.graph.Above (ss.map (·.node)) i → w.graph.Above (ss.map (·.node)) j →
      w.graph.hash i = w.graph.hash j →
        (w.graph.incoming i).map w.graph.term = (w.graph.incoming j).map w.graph.term := by
    intro i j hi hj hij
    obtain ⟨a, _, ha⟩ := h.exists_needed hi
    obtain ⟨b, _, hb⟩ := h.exists_needed hj
    exact h.terms_eq hc (fun _ => h.inside) ha hb hi hj hij
  constructor
  · rintro ⟨t, l, ht, hk, hs⟩ single
    obtain ⟨i, k, j, m, hi, hj, hne⟩ := (shared_iff_places aligned).mp hs
    obtain ⟨a, x, u, ha, usesX, hu, hx, hash⟩ := h.uses_of_takenAt hi
    obtain ⟨b, y, v, hb, usesY, hv, hy, hash'⟩ := h.uses_of_takenAt hj
    have kind : x.kind = .transform := by
      rw [← hx.kind, hc.kind_eq hu ht hash, hk]
    have twins := h.twins_of_hash_eq hc (fun _ => h.inside) hx hy hu hv (hash.trans hash'.symm)
    obtain ⟨same, place⟩ := single a k x b m y l usesX usesY kind twins
    exact hne ⟨h.hash_eq_of_twins same ha hb (h.inside hi.above) (h.inside hj.above), place⟩
  · intro several
    by_contra unshared
    refine several fun a k x b m y l usesX usesY kind twins => ?_
    by_contra apart
    obtain ⟨i, u, ha, hu, hx, hi⟩ := h.takenAt_of_uses usesX
    obtain ⟨j, v, hb, hv, hy, hj⟩ := h.takenAt_of_uses usesY
    have hash := h.hash_eq_of_twins twins hx hy (h.inside hu) (h.inside hv)
    rw [← hash] at hj
    refine unshared ⟨u, l, hu, hx.kind.trans kind, (shared_iff_places aligned).mpr
      ⟨i, k, j, m, hi, hj, fun same => apart ⟨?_, same.2⟩⟩⟩
    exact h.twins_of_hash_eq hc (fun _ => h.inside) ha hb hi.above hj.above same.1

/-- **What was built compiles when its outputs are used once**, and only then. -/
theorem Wired.compiles_iff (h : w.Wired d n ss)
    (hc : w.graph.Collisionless (ss.map (·.node))) (settings : Settings) :
    (∃ args, w.graph.outcome settings ss = .ok (.ok args)) ↔ d.SingleUse := by
  have terminals : w.graph.Collisionless (w.graph.terminals ss) := fun i j hi hj =>
    hc i j (hi.mono fun _ => mem_of_mem_distinct) (hj.mono fun _ => mem_of_mem_distinct)
  have kept : ∀ args, w.graph.outcome settings ss = .ok (.ok args) ↔
      w.graph.compile settings ss = .ok args := by
    intro args
    unfold Graph.outcome
    rcases w.graph.compile settings ss with (e | u) | args' <;> simp
  have shared := (sharesOutput_distinct_iff hc).trans (h.sharesOutput_iff hc)
  simp only [kept]
  rw [h.reflects.compiles_iff h.sinks settings terminals, not_iff_comm, ← shared]
  rfl

end Wiring

/-! ## 3. Documents that name each output once -/

namespace Document

variable {d : Document} {a b x y : NodeEntry} {r s : StreamAddress}

/-- Two addresses name one output of a filter. -/
def SameOutput (d : Document) (r s : StreamAddress) : Prop :=
  r.node ∈ d.filters.map (·.1) ∧ r.node = s.node ∧ r.label = s.label

instance (d : Document) (r s : StreamAddress) : Decidable (d.SameOutput r s) :=
  inferInstanceAs (Decidable (_ ∧ _))

/-- No two addresses of a document name one output of a filter. -/
def NamedOnce (d : Document) : Prop := d.addresses.Pairwise fun r s => ¬ d.SameOutput r s

instance (d : Document) : Decidable d.NamedOnce := inferInstanceAs (Decidable (List.Pairwise _ _))

/-- An entry that is needed has an address with the id. -/
def NeededId (d : Document) (id : String) : Prop := ∃ a r, d.Needed a ∧ r ∈ a.inputs ∧ r.node = id

/-- No two ids that are needed stand for filters that say the same. -/
def Distinct (d : Document) : Prop :=
  ∀ id x id' y, d.NeededId id → d.NeededId id' → d.entryFor? id = some x →
    d.entryFor? id' = some y → x.kind = .transform → d.Twins x y → id = id'

/-- The entries that have addresses. -/
def consumers (d : Document) : List NodeEntry :=
  d.filters.map (·.2.asNode) ++ d.outputs.map OutputEntry.asNode

theorem addresses_eq (d : Document) : d.addresses = d.consumers.flatMap (·.inputs) := by
  rw [consumers, List.flatMap_append, List.flatMap_map, List.flatMap_map]
  rfl

/-- A filter is found under the id of a filter. -/
theorem mem_filters_of_entryFor? {id : String} (hx : d.entryFor? id = some x)
    (kind : x.kind = .transform) : id ∈ d.filters.map (·.1) := by
  unfold entryFor? at hx
  split at hx
  · cases hx
    cases kind
  · obtain ⟨f, hf, _⟩ := Option.map_eq_some_iff.mp hx
    exact List.mem_map_of_mem (Entries.mem_of_find? hf)

/-- What is needed and has an address is one of the consumers. -/
theorem Needed.mem_consumers (h : d.Needed a) (hr : r ∈ a.inputs) : a ∈ d.consumers := by
  cases h with
  | output ho => exact List.mem_append_right _ (List.mem_map_of_mem ho)
  | supplier _ _ hx =>
    unfold entryFor? at hx
    split at hx
    · cases hx
      cases hr
    · obtain ⟨f, hf, rfl⟩ := Option.map_eq_some_iff.mp hx
      exact List.mem_append_left _ (List.mem_map_of_mem (f := (·.2.asNode)) (Entries.mem_of_find? hf))

theorem SameOutput.symm (h : d.SameOutput r s) : d.SameOutput s r :=
  ⟨h.2.1 ▸ h.1, h.2.1.symm, h.2.2.symm⟩

/-- **Where each output is named once**, addresses that name one output are one address of one entry. -/
theorem NamedOnce.unique (h : d.NamedOnce) (ha : a ∈ d.consumers) (hb : b ∈ d.consumers) {k m : Nat}
    (hr : a.inputs[k]? = some r) (hs : b.inputs[m]? = some s) (same : d.SameOutput r s) :
    a = b ∧ k = m := by
  unfold NamedOnce at h
  rw [addresses_eq, List.pairwise_flatMap] at h
  obtain ⟨within, between⟩ := h
  have one : a = b := by
    by_contra apart
    have symm : Std.Symm fun a b : NodeEntry =>
        ∀ r ∈ a.inputs, ∀ s ∈ b.inputs, ¬ d.SameOutput r s :=
      ⟨fun _ _ h s hs r hr same => h r hr s hs same.symm⟩
    exact between.forall ha hb apart r (List.mem_of_getElem? hr) s (List.mem_of_getElem? hs) same
  subst one
  refine ⟨rfl, ?_⟩
  obtain ⟨hk, rfl⟩ := List.getElem?_eq_some_iff.mp hr
  obtain ⟨hm, rfl⟩ := List.getElem?_eq_some_iff.mp hs
  have places := List.pairwise_iff_getElem.mp (within a ha)
  rcases Nat.lt_trichotomy k m with hlt | heq | hgt
  · exact absurd same (places k m hk hm hlt)
  · exact heq
  · exact absurd same.symm (places m k hm hk hgt)

/-- **Where each output is named once and no two filters say the same, outputs are used once.** Only
the filters count that are needed under their ids. -/
theorem NamedOnce.singleUse (h : d.NamedOnce) (distinct : d.Distinct)
    (refl : ∀ a, d.Needed a → d.Twins a a) : d.SingleUse := by
  rintro a k x b m y l ⟨ha, r, hr, hx, rfl⟩ ⟨hb, s, hs, hy, label⟩ kind twins
  have memR := List.mem_of_getElem? hr
  have memS := List.mem_of_getElem? hs
  have node : r.node = s.node :=
    distinct _ x _ y ⟨a, r, ha, memR, rfl⟩ ⟨b, s, hb, memS, rfl⟩ hx hy kind twins
  obtain ⟨rfl, place⟩ := h.unique (ha.mem_consumers memR) (hb.mem_consumers memS) hr hs
    ⟨mem_filters_of_entryFor? hx kind, node, label.symm⟩
  exact ⟨refl a ha, place⟩

end Document

open Wiring in
/-- A valid document is built, and what is built is wired. -/
theorem Pipeline.exists_wired {p : Pipeline} (shaped : p.document.Shaped) (g₀ : Graph) :
    ∃ (w : Wiring) (ss : List Stream), p.toGraph g₀ = .ok (w.graph, ss) ∧
      w.Wired p.document g₀.nodes.size ss := by
  obtain ⟨w, ss, built, _, reflects, sinks⟩ := p.exists_built g₀
  exact ⟨w, ss, built, reflects, numbered_of_toGraph shaped built, shaped.inputIds, sinks⟩

/-- **Documents whose outputs are used once compile.** A valid document is built. Unless digests
collide, it compiles exactly when each output of a filter is used at one place, where filters that say
the same are one filter, and entries that say the same one consumer. So it compiles when no two of its
addresses name one output of a filter and no two of the filters that its outputs need say the same. -/
theorem Pipeline.single_use_compiles {v : Json} {p : Pipeline} (hp : ofJson v = .ok p) (g₀ : Graph)
    (settings : Settings) :
    ∃ g ss, p.toGraph g₀ = .ok (g, ss) ∧ (g.Collisionless (ss.map (·.node)) →
      ((∃ args, g.outcome settings ss = .ok (.ok args)) ↔ p.document.SingleUse) ∧
      (p.document.NamedOnce → p.document.Distinct →
        ∃ args, g.outcome settings ss = .ok (.ok args))) := by
  obtain ⟨shaped, _⟩ := exists_ofJson_iff.mp ⟨v, p, hp, rfl⟩
  obtain ⟨w, ss, built, wired⟩ := exists_wired shaped g₀
  refine ⟨w.graph, ss, built, fun hc => ⟨wired.compiles_iff hc settings, fun named distinct => ?_⟩⟩
  refine (wired.compiles_iff hc settings).mpr (named.singleUse distinct fun a ha => ?_)
  obtain ⟨i, hi, stands⟩ := wired.exists_above ha
  exact wired.twins_of_hash_eq hc (fun _ => wired.inside) stands stands hi hi rfl

open FilterGraph.Graph in
/-- The document of two outputs of one filter names each once, and has one filter. -/
theorem Pipeline.single_use_compiles_crossed :
    Pipeline.ofJson crossedDocument.toJson =
        .ok ⟨crossedDocument, ["cut"], crossedDocument_order⟩ ∧
      crossed.Collisionless [2] ∧ crossedDocument.NamedOnce ∧ crossedDocument.Distinct ∧
      crossedDocument.SingleUse ∧
      ∃ args, crossed.outcome .standard [crossed.stream 2 "" none] = .ok (.ok args) := by
  have read : Pipeline.ofJson crossedDocument.toJson =
      .ok ⟨crossedDocument, ["cut"], crossedDocument_order⟩ :=
    Pipeline.ofJson_eq_ok rfl crossedDocument_order
  have hc : crossed.Collisionless [2] := crossed_collisionless (by decide)
  have named : crossedDocument.NamedOnce := by decide
  have distinct : crossedDocument.Distinct := by
    intro id x id' y _ _ hx hy kind twins
    have first := Document.mem_filters_of_entryFor? hx kind
    have second := Document.mem_filters_of_entryFor? hy (twins.kind_eq.symm.trans kind)
    exact (List.mem_singleton.mp first).trans (List.mem_singleton.mp second).symm
  obtain ⟨g, ss, built, compiles⟩ := Pipeline.single_use_compiles read .empty .standard
  obtain ⟨rfl, rfl⟩ := Prod.mk.inj (Except.ok.inj (crossedDocument_toGraph.symm.trans built))
  obtain ⟨iff, succeeds⟩ := compiles hc
  have args := succeeds named distinct
  exact ⟨read, hc, named, distinct, iff.mp args, args⟩

/-- A document with two filters that say the same, and whose output takes both. -/
def mirroredDocument : Document where
  inputs := [("in", ⟨"in.mp4", default⟩)]
  filters := [("left", ⟨"hflip", [⟨"in", "", none⟩], default⟩),
    ("right", ⟨"hflip", [⟨"in", "", none⟩], default⟩)]
  outputs := [⟨"out.mp4", [⟨"left", "", none⟩, ⟨"right", "", none⟩], default⟩]

theorem mirroredDocument_order : mirroredDocument.order = .ok ["left", "right"] := by
  refine Document.order_eq_ok_iff.mpr ⟨rfl, rfl, ?_⟩
  simp [Filters.order, Filters.visit, Filters.visitAll, mirroredDocument, Entries.find?, Except.map,
    bind, Except.bind, pure, Except.pure]

namespace Graph

/-- Its graph. -/
def mirrored : Graph :=
  let (g, s) := Graph.empty.source (some "in.mp4") (.options [])
  let (g, left) := g.filterMulti (.one s) "hflip" (.options [])
  let (g, right) := g.filterMulti (.one s) "hflip" (.options [])
  (g.output (.many [g.stream left.node "" none, g.stream right.node "" none]) (some "out.mp4")
    (.options [])).1

theorem number_mirrored_filter : Identity.node Digest.ofJson .transform "hflip" (.options []) none
    [⟨"", 0x04a838841dc2246b, "", none⟩] = 0x65198ed36b0ae7d7 := by
  unfold Identity.node Identity.Term.number Digest.ofJson
  simp only [List.map_cons, List.map_nil, List.foldr_cons, List.foldr_nil]
  conv => lhs; arg 1; arg 1; cbv
  conv => lhs; arg 2; arg 1; arg 1; cbv
  decide +kernel

theorem number_mirrored_sink : Identity.node Digest.ofJson .sink "output" (.options [])
    (some "out.mp4") [⟨"0", 0x65198ed36b0ae7d7, "", none⟩, ⟨"1", 0x65198ed36b0ae7d7, "", none⟩] =
      0x38faed59dc1f0c3a := by
  unfold Identity.node Identity.Term.number Digest.ofJson
  simp only [List.map_cons, List.map_nil, List.foldr_cons, List.foldr_nil]
  conv => lhs; arg 1; arg 1; cbv
  conv => lhs; arg 2; arg 1; arg 1; cbv
  conv => lhs; arg 2; arg 2; arg 1; arg 1; cbv
  decide +kernel

/-- The graph with the numbers that its nodes have. -/
theorem mirrored_eq : mirrored = ⟨#[
    ⟨.source, "input", .options [], some "in.mp4", [], [], 0x04a838841dc2246b⟩,
    ⟨.transform, "hflip", .options [], none, [⟨"", ⟨0, "", none⟩⟩], [], 0x65198ed36b0ae7d7⟩,
    ⟨.transform, "hflip", .options [], none, [⟨"", ⟨0, "", none⟩⟩], [], 0x65198ed36b0ae7d7⟩,
    ⟨.sink, "output", .options [], some "out.mp4",
      [⟨"0", ⟨1, "", none⟩⟩, ⟨"1", ⟨2, "", none⟩⟩], [], 0x38faed59dc1f0c3a⟩]⟩ := by
  have added : mirrored = ((((Graph.empty.add .source "input" (.options []) (some "in.mp4") []).1.add
      .transform "hflip" (.options []) none [⟨"", ⟨0, "", none⟩⟩]).1.add
      .transform "hflip" (.options []) none [⟨"", ⟨0, "", none⟩⟩]).1.add
      .sink "output" (.options []) (some "out.mp4")
      [⟨"0", ⟨1, "", none⟩⟩, ⟨"1", ⟨2, "", none⟩⟩]).1 := rfl
  rw [added, add_of_number number_crossed_source rfl, add_of_number number_mirrored_filter rfl,
    add_of_number number_mirrored_filter rfl, add_of_number number_mirrored_sink] <;> rfl

end Graph

open FilterGraph.Graph Wiring in
theorem mirroredDocument_toGraph :
    Pipeline.toGraph ⟨mirroredDocument, ["left", "right"], mirroredDocument_order⟩ .empty =
      .ok (mirrored, [mirrored.stream 3 "" none]) := by
  simp [Pipeline.toGraph, mirroredDocument, addOutputs, addOutput, resolveAll, resolve,
    Wiring.filter, addInput, addFilter, addSink, narrowed, Entries.find?, Entries.set,
    Entries.modify, Except.map]
  exact ⟨rfl, rfl⟩

open FilterGraph.Graph in
/-- **The document does not compile**, although each of its outputs is named once: its two filters
are one node, whose output the sink takes twice. -/
theorem Pipeline.twin_filters_do_not_compile :
    Pipeline.ofJson mirroredDocument.toJson =
        .ok ⟨mirroredDocument, ["left", "right"], mirroredDocument_order⟩ ∧
      mirroredDocument.NamedOnce ∧
      Pipeline.toGraph ⟨mirroredDocument, ["left", "right"], mirroredDocument_order⟩ .empty =
        .ok (mirrored, [mirrored.stream 3 "" none]) ∧
      mirrored.outcome .standard [mirrored.stream 3 "" none] =
        .ok (.error (.multipleConsumers 1 "" [⟨3, "0", none⟩, ⟨3, "1", none⟩])) := by
  refine ⟨Pipeline.ofJson_eq_ok rfl mirroredDocument_order, by decide, mirroredDocument_toGraph, ?_⟩
  rw [mirrored_eq]
  cbv

end FilterGraph
