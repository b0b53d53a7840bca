import FilterGraph.Proofs.Reach

/-!
# The walk as a run of steps

`Graph.sort` as a machine: a state is the path of the walk, what is sorted, and the trace of the
edges followed so far; `Graph.Reached` lists the states that a run over some terminals can be in,
one rule for each thing a step can do.

* `sort_ok`, `sort_error`: the outcome of `Graph.sort` is a state of such a run, with an empty path,
  or in front of an edge that comes from the path itself;
* `Reached.nodup`, `Reached.above`, `Reached.covers`, `Reached.suspended`, `Reached.ordered`,
  `Reached.hops_perm`, `Reached.outgoing_eq`: what holds in every state.

The trace is the order of traversal: it is not kept by the sort, but the outgoing edges are what
recording the trace gives.
-/

namespace FilterGraph.Graph

/-! ## 1. The machine -/

/-- An edge in the walk: the node it enters, and the edge. -/
abbrev Hop := NodeId × Incoming

/-- The edges that enter a node. -/
def hops (g : Graph) (i : NodeId) : List Hop := (g.incoming i).map (i, ·)

/-- The consuming end of an edge. -/
def Hop.consumer (x : Hop) : Consumer := ⟨x.1, x.2.label, x.2.supply.selector⟩

/-- Records an edge at the node that supplies it. -/
def follow (g : Graph) (s : Sorted) (x : Hop) : Sorted :=
  s.record (g.hash x.2.supply.node) x.2.supply.label x.consumer

/-- The edges still to be followed from the nodes of a path. -/
def remaining (path : Trail) : List Hop := path.flatMap fun p => p.2.map (p.1, ·)

/-- The states of a run over terminals: the path, what is sorted, and the edges followed. -/
inductive Reached (g : Graph) : List NodeId → Trail → Sorted → List Hop → Prop where
  | start : Reached g [] [] .empty []
  | pass {ts : List NodeId} {s : Sorted} {T : List Hop} {t : NodeId} (h : Reached g ts [] s T)
      (ht : g.hash t ∈ s.nodes.map g.hash) : Reached g (ts ++ [t]) [] s T
  | terminal {ts : List NodeId} {s : Sorted} {T : List Hop} {t : NodeId} (h : Reached g ts [] s T)
      (ht : g.hash t ∉ s.nodes.map g.hash) :
      Reached g (ts ++ [t]) [(t, g.incoming t)] s T
  | finish {ts : List NodeId} {path : Trail} {s : Sorted} {T : List Hop} {i : NodeId}
      (h : Reached g ts ((i, []) :: path) s T) : Reached g ts path (s.finish i) T
  | skip {ts : List NodeId} {path : Trail} {s : Sorted} {T : List Hop} {i : NodeId} {e : Incoming}
      {es : List Incoming} (h : Reached g ts ((i, e :: es) :: path) s T)
      (hu : g.hash e.supply.node ∈ s.nodes.map g.hash) :
      Reached g ts ((i, es) :: path) (g.follow s (i, e)) (T ++ [(i, e)])
  | enter {ts : List NodeId} {path : Trail} {s : Sorted} {T : List Hop} {i : NodeId} {e : Incoming}
      {es : List Incoming} (h : Reached g ts ((i, e :: es) :: path) s T)
      (hu : g.hash e.supply.node ∉ (s.nodes ++ i :: entered path).map g.hash) :
      Reached g ts ((e.supply.node, g.incoming e.supply.node) :: (i, es) :: path)
        (g.follow s (i, e)) (T ++ [(i, e)])

/-- A run in front of an edge whose supplier is on the path. -/
structure Blocked (g : Graph) (ts : List NodeId) (u : NodeId) : Prop where
  state : ∃ path s T i e es, g.Reached ts ((i, e :: es) :: path) s T ∧ e.supply.node = u ∧
    g.hash u ∈ (i :: entered path).map g.hash

variable {g : Graph} {ts us : List NodeId} {path : Trail} {s s' : Sorted} {T : List Hop}

@[simp] theorem finish_nodes (s : Sorted) (i : NodeId) : (s.finish i).nodes = s.nodes ++ [i] := rfl

@[simp] theorem finish_outgoing (s : Sorted) (i : NodeId) :
    (s.finish i).outgoing = s.outgoing := rfl

@[simp] theorem follow_nodes (s : Sorted) (x : Hop) : (g.follow s x).nodes = s.nodes := rfl

theorem follow_outgoing_congr {s s' : Sorted} (h : s.outgoing = s'.outgoing) (x : Hop) :
    (g.follow s x).outgoing = (g.follow s' x).outgoing := by
  simp only [follow, Sorted.record, h]

/-! ## 2. The sort is a run -/

/-- A walk that succeeds from a state of a run ends in a state with an empty path. -/
theorem Reached.walk_ok (hr : g.Reached ts path s T) (hw : g.walk path s = .ok s') :
    ∃ T', g.Reached ts [] s' T' := by
  fun_induction walk g path s generalizing T with
  | case1 s =>
    cases hw
    exact ⟨T, hr⟩
  | case2 i path s ih => exact ih hr.finish hw
  | case3 =>
    rename_i hu ih
    exact ih (hr.skip (holds_iff.mp hu)) hw
  | case4 => cases hw
  | case5 =>
    rename_i hu hp ih
    refine ih (hr.enter ?_) hw
    rw [holds_iff] at hu hp
    simpa only [List.map_append, List.mem_append, not_or] using ⟨hu, hp⟩

/-- A walk that fails from a state of a run ends in front of an edge from its path. -/
theorem Reached.walk_error (hr : g.Reached ts path s T) {c : CycleFound}
    (hw : g.walk path s = .error c) : g.Blocked ts c.node := by
  fun_induction walk g path s generalizing T with
  | case1 s => cases hw
  | case2 i path s ih => exact ih hr.finish hw
  | case3 =>
    rename_i hu ih
    exact ih (hr.skip (holds_iff.mp hu)) hw
  | case4 =>
    rename_i hu hp
    cases hw
    exact ⟨_, _, T, _, _, _, hr, rfl, holds_iff.mp hp⟩
  | case5 =>
    rename_i hu hp ih
    refine ih (hr.enter ?_) hw
    rw [holds_iff] at hu hp
    simpa only [List.map_append, List.mem_append, not_or] using ⟨hu, hp⟩

/-- Visiting one more terminal continues a run. -/
theorem Reached.visit_ok (hr : g.Reached ts [] s T) {t : NodeId} (hv : g.visit s t = .ok s') :
    ∃ T', g.Reached (ts ++ [t]) [] s' T' := by
  unfold visit at hv
  split at hv
  · rename_i ht
    cases hv
    exact ⟨T, hr.pass (holds_iff.mp ht)⟩
  · rename_i ht
    rw [holds_iff] at ht
    exact (hr.terminal ht).walk_ok hv

theorem Reached.visit_error (hr : g.Reached ts [] s T) {t : NodeId} {c : CycleFound}
    (hv : g.visit s t = .error c) : g.Blocked (ts ++ [t]) c.node := by
  unfold visit at hv
  split at hv
  · cases hv
  · rename_i ht
    rw [holds_iff] at ht
    exact (hr.terminal ht).walk_error hv

/-- Visiting a list of terminals continues a run over all of them. -/
theorem Reached.foldlM_ok (hr : g.Reached ts [] s T) (hv : us.foldlM g.visit s = .ok s') :
    ∃ T', g.Reached (ts ++ us) [] s' T' := by
  induction us generalizing ts s T with
  | nil =>
    cases hv
    exact ⟨T, by simpa using hr⟩
  | cons u us ih =>
    rw [List.foldlM_cons] at hv
    cases hu : g.visit s u with
    | error c => rw [hu] at hv; cases hv
    | ok s₁ =>
      rw [hu] at hv
      obtain ⟨T₁, hr₁⟩ := hr.visit_ok hu
      obtain ⟨T', hr'⟩ := ih hr₁ hv
      exact ⟨T', by simpa using hr'⟩

theorem Reached.foldlM_error (hr : g.Reached ts [] s T) {c : CycleFound}
    (hv : us.foldlM g.visit s = .error c) :
    ∃ us', us' <+: us ∧ g.Blocked (ts ++ us') c.node := by
  induction us generalizing ts s T with
  | nil => cases hv
  | cons u us ih =>
    rw [List.foldlM_cons] at hv
    cases hu : g.visit s u with
    | error c' =>
      rw [hu] at hv
      cases hv
      exact ⟨[u], by simp, hr.visit_error hu⟩
    | ok s₁ =>
      rw [hu] at hv
      obtain ⟨T₁, hr₁⟩ := hr.visit_ok hu
      obtain ⟨us', hpre, hb⟩ := ih hr₁ hv
      exact ⟨u :: us', List.prefix_cons_inj u |>.mpr hpre, by simpa using hb⟩

/-- **A sort that succeeds is a run to its end.** -/
theorem sort_ok (h : g.sort ts = .ok s) : ∃ T, g.Reached ts [] s T := by
  simpa using Reached.start.foldlM_ok h

/-- **A sort that fails is a run into its own path**, over some of the terminals. -/
theorem sort_error {c : CycleFound} (h : g.sort ts = .error c) :
    ∃ ts', ts' <+: ts ∧ g.Blocked ts' c.node := by
  simpa using Reached.start.foldlM_error h

/-! ## 3. The path -/

/-- The edges of `i` in front of `es` have been followed: what feeds them is sorted. -/
def Followed (g : Graph) (nodes : List NodeId) (i : NodeId) (es : List Incoming) : Prop :=
  ∃ before, g.incoming i = before ++ es ∧ ∀ e ∈ before, g.hash e.supply.node ∈ nodes.map g.hash

/-- The nodes of a path wait for `u`: it feeds the innermost, which feeds the next, and so on. -/
def Waiting (g : Graph) (nodes : List NodeId) : NodeId → Trail → Prop
  | _, [] => True
  | u, (i, es) :: path =>
    (∃ e, e.supply.node = u ∧ g.Followed nodes i (e :: es)) ∧ Waiting g nodes i path

/-- What a path looks like: its innermost node is being followed, the others wait for it. -/
def Suspended (g : Graph) (nodes : List NodeId) : Trail → Prop
  | [] => True
  | (i, es) :: path => g.Followed nodes i es ∧ g.Waiting nodes i path

theorem Followed.start (nodes : List NodeId) (i : NodeId) : g.Followed nodes i (g.incoming i) :=
  ⟨[], rfl, by simp⟩

theorem Followed.mem {nodes : List NodeId} {i : NodeId} {e : Incoming} {es : List Incoming}
    (h : g.Followed nodes i (e :: es)) : e ∈ g.incoming i := by
  obtain ⟨before, heq, _⟩ := h
  rw [heq]
  exact List.mem_append_right _ List.mem_cons_self

/-- Sorting more nodes undoes nothing. -/
theorem Followed.mono {nodes more : List NodeId} {i : NodeId} {es : List Incoming}
    (h : g.Followed nodes i es) : g.Followed (nodes ++ more) i es := by
  obtain ⟨before, heq, hb⟩ := h
  refine ⟨before, heq, fun e he => ?_⟩
  rw [List.map_append]
  exact List.mem_append_left _ (hb e he)

/-- An edge whose supplier is sorted is done with. -/
theorem Followed.advance {nodes : List NodeId} {i : NodeId} {e : Incoming} {es : List Incoming}
    (h : g.Followed nodes i (e :: es)) (he : g.hash e.supply.node ∈ nodes.map g.hash) :
    g.Followed nodes i es := by
  obtain ⟨before, heq, hb⟩ := h
  refine ⟨before ++ [e], by rw [heq, List.append_assoc]; rfl, fun x hx => ?_⟩
  rcases List.mem_append.mp hx with hx | hx
  · exact hb x hx
  · rw [List.mem_singleton] at hx
    rw [hx]
    exact he

theorem Waiting.mono {nodes more : List NodeId} {u : NodeId} {path : Trail}
    (h : g.Waiting nodes u path) : g.Waiting (nodes ++ more) u path := by
  induction path generalizing u with
  | nil => trivial
  | cons p path ih =>
    obtain ⟨⟨e, hu, hf⟩, hw⟩ := h
    exact ⟨⟨e, hu, hf.mono⟩, ih hw⟩

/-- Finishing the node that a path waits for lets its innermost node go on. -/
theorem Waiting.resume {nodes : List NodeId} {u : NodeId} {path : Trail}
    (h : g.Waiting nodes u path) : g.Suspended (nodes ++ [u]) path := by
  cases path with
  | nil => trivial
  | cons p path =>
    obtain ⟨⟨e, hu, hf⟩, hw⟩ := h
    refine ⟨hf.mono.advance ?_, hw.mono⟩
    rw [hu]
    simp

theorem Reached.suspended (hr : g.Reached ts path s T) : g.Suspended s.nodes path := by
  induction hr with
  | start => trivial
  | pass => trivial
  | terminal => exact ⟨Followed.start _ _, trivial⟩
  | finish _ ih => exact ih.2.resume
  | skip _ hu ih => exact ⟨ih.1.advance hu, ih.2⟩
  | enter _ _ ih => exact ⟨Followed.start _ _, ⟨_, rfl, ih.1⟩, ih.2⟩

/-- The next edge of a run is an edge of the innermost node. -/
theorem Reached.mem_incoming {i : NodeId} {e : Incoming} {es : List Incoming}
    (hr : g.Reached ts ((i, e :: es) :: path) s T) : e ∈ g.incoming i := hr.suspended.1.mem

/-- **A walk stays above its terminals.** -/
theorem Reached.above (hr : g.Reached ts path s T) :
    ∀ i ∈ s.nodes ++ entered path, g.Above ts i := by
  induction hr with
  | start => simp [Sorted.empty]
  | pass _ _ ih => exact fun i hi => (ih i hi).mono fun t ht => List.mem_append_left _ ht
  | terminal _ _ ih =>
    intro i hi
    rcases List.mem_append.mp hi with hi | hi
    · exact (ih i (by simpa using hi)).mono fun t ht => List.mem_append_left _ ht
    · rw [entered_cons, entered_nil, List.mem_singleton] at hi
      rw [hi]
      exact .terminal (by simp)
  | finish _ ih => exact fun i hi => ih i (by simpa using hi)
  | skip _ _ ih => exact ih
  | enter h _ ih =>
    intro i hi
    rw [follow_nodes, entered_cons, List.mem_append, List.mem_cons] at hi
    rcases hi with hi | rfl | hi
    · exact ih i (List.mem_append_left _ hi)
    · exact .feeds (ih _ (by simp)) h.mem_incoming
    · exact ih i (List.mem_append_right _ hi)

/-- A path is a chain of links from its innermost node to all others. -/
theorem Waiting.linked {nodes : List NodeId} {u : NodeId} {path : Trail}
    (h : g.Waiting nodes u path) (ha : ∀ i ∈ entered path, g.Above ts i) :
    ∀ i ∈ entered path, Relation.TransGen (g.Link ts) (g.hash u) (g.hash i) := by
  induction path generalizing u with
  | nil => exact fun i hi => absurd hi List.not_mem_nil
  | cons p path ih =>
    obtain ⟨⟨e, hu, hf⟩, hw⟩ := h
    have link : g.Link ts (g.hash u) (g.hash p.1) :=
      ⟨p.1, e, ha p.1 List.mem_cons_self, hf.mem, rfl, by rw [hu]⟩
    intro i hi
    rcases List.mem_cons.mp hi with rfl | hi
    · exact .single link
    · exact .head link (ih hw (fun j hj => ha j (List.mem_cons_of_mem _ hj)) i hi)

/-- **A run into its own path has found a cycle**, through the node that it was to enter. -/
theorem Blocked.linked {u : NodeId} (h : g.Blocked ts u) :
    Relation.TransGen (g.Link ts) (g.hash u) (g.hash u) := by
  obtain ⟨path, s, T, i, e, es, hr, rfl, hmem⟩ := h.state
  have ha : ∀ j ∈ entered ((i, e :: es) :: path), g.Above ts j :=
    fun j hj => hr.above j (List.mem_append_right _ hj)
  have link : g.Link ts (g.hash e.supply.node) (g.hash i) :=
    ⟨i, e, ha i List.mem_cons_self, hr.mem_incoming, rfl, rfl⟩
  obtain ⟨j, hj, hhash⟩ := List.mem_map.mp hmem
  rw [← hhash] at link ⊢
  rcases List.mem_cons.mp hj with rfl | hj
  · exact .single link
  · exact .head link (hr.suspended.2.linked (fun k hk => ha k (List.mem_cons_of_mem _ hk)) j hj)

/-! ## 4. What is sorted -/

/-- Every node of the list comes after the nodes that feed it. -/
def Ordered (g : Graph) (nodes : List NodeId) : Prop :=
  ∀ pre i post, nodes = pre ++ i :: post →
    ∀ e ∈ g.incoming i, g.hash e.supply.node ∈ pre.map g.hash

theorem Ordered.snoc {nodes : List NodeId} (h : g.Ordered nodes) {i : NodeId}
    (hi : ∀ e ∈ g.incoming i, g.hash e.supply.node ∈ nodes.map g.hash) :
    g.Ordered (nodes ++ [i]) := by
  intro pre j post heq e he
  rcases List.eq_nil_or_concat post with rfl | ⟨post, z, rfl⟩
  · obtain ⟨rfl, hij⟩ := List.append_inj' heq rfl
    cases hij
    exact hi e he
  · have heq' : nodes ++ [i] = (pre ++ j :: post) ++ [z] := by simpa using heq
    obtain ⟨rfl, _⟩ := List.append_inj' heq' rfl
    exact h pre j post rfl e he

theorem Reached.ordered (hr : g.Reached ts path s T) : g.Ordered s.nodes := by
  induction hr with
  | start => intro pre i post heq; simp [Sorted.empty] at heq
  | pass _ _ ih => exact ih
  | terminal _ _ ih => exact ih
  | finish h ih =>
    obtain ⟨⟨before, heq, hb⟩, _⟩ := h.suspended
    rw [List.append_nil] at heq
    exact ih.snoc (heq ▸ hb)
  | skip _ _ ih => exact ih
  | enter _ _ ih => exact ih

/-- **No number is met twice**, in what is sorted or on the path. -/
theorem Reached.nodup (hr : g.Reached ts path s T) :
    ((s.nodes ++ entered path).map g.hash).Nodup := by
  induction hr with
  | start => simp [Sorted.empty]
  | pass _ _ ih => exact ih
  | terminal _ ht ih =>
    simp only [entered_cons, entered_nil, List.append_nil, List.map_append, List.map_cons,
      List.map_nil] at ih ⊢
    exact List.nodup_middle.mpr (List.nodup_cons.mpr ⟨by simpa using ht, by simpa using ih⟩)
  | finish _ ih => simpa using ih
  | skip _ _ ih => exact ih
  | enter _ hu ih =>
    simp only [follow_nodes, entered_cons, List.map_append, List.map_cons] at ih hu ⊢
    exact List.nodup_middle.mpr (List.nodup_cons.mpr ⟨hu, ih⟩)

/-- The terminals of a run are met. -/
theorem Reached.covers (hr : g.Reached ts path s T) :
    ∀ t ∈ ts, g.hash t ∈ (s.nodes ++ entered path).map g.hash := by
  induction hr with
  | start => simp
  | pass _ ht ih =>
    intro t hmem
    rcases List.mem_append.mp hmem with hmem | hmem
    · exact ih t hmem
    · rw [List.mem_singleton.mp hmem]
      simpa using ht
  | terminal _ _ ih =>
    intro t hmem
    rcases List.mem_append.mp hmem with hmem | hmem
    · have := ih t hmem
      simp only [entered_nil, List.append_nil] at this
      rw [List.map_append]
      exact List.mem_append_left _ this
    · rw [List.mem_singleton.mp hmem]
      simp
  | finish _ ih => simpa using ih
  | skip _ _ ih => exact ih
  | enter _ _ ih =>
    intro t hmem
    have := ih t hmem
    simp only [follow_nodes, entered_cons, List.map_append, List.map_cons, List.mem_append,
      List.mem_cons] at this ⊢
    exact this.imp_right .inr

/-! ## 5. The trace -/

/-- **Every edge of a node that was met is followed once or still to be followed.** -/
theorem Reached.hops_perm (hr : g.Reached ts path s T) :
    (T ++ remaining path).Perm ((s.nodes ++ entered path).flatMap g.hops) := by
  induction hr with
  | start => exact List.Perm.refl _
  | pass _ _ ih => exact ih
  | terminal _ _ ih =>
    simp only [remaining, entered_nil, entered_cons, List.flatMap_nil, List.append_nil,
      List.flatMap_append, List.flatMap_cons] at ih ⊢
    exact ih.append_right _
  | finish _ ih => simpa [remaining] using ih
  | skip _ _ ih => simpa [remaining] using ih
  | @enter ts path s T i e es _ _ ih =>
    -- the edges of the entered node come in on both sides
    have swap := List.perm_append_comm_assoc (T ++ [(i, e)]) (g.hops e.supply.node)
      (remaining ((i, es) :: path))
    have split := List.perm_append_comm_assoc (s.nodes.flatMap g.hops) (g.hops e.supply.node)
      ((i :: entered path).flatMap g.hops)
    have inner : (T ++ [(i, e)] ++ remaining ((i, es) :: path)).Perm
        (s.nodes.flatMap g.hops ++ (i :: entered path).flatMap g.hops) := by
      simpa [remaining] using ih
    rw [follow_nodes, entered_cons, entered_cons, List.flatMap_append, List.flatMap_cons]
    exact swap.trans ((inner.append_left _).trans split.symm)

/-- **The outgoing edges are the record of the trace.** -/
theorem Reached.outgoing_eq (hr : g.Reached ts path s T) :
    s.outgoing = (T.foldl g.follow .empty).outgoing := by
  induction hr with
  | start => rfl
  | pass _ _ ih => exact ih
  | terminal _ _ ih => exact ih
  | finish _ ih => exact ih
  | skip _ _ ih =>
    rw [List.foldl_append]
    exact follow_outgoing_congr ih _
  | enter _ _ ih =>
    rw [List.foldl_append]
    exact follow_outgoing_congr ih _

end FilterGraph.Graph
