import FilterGraph.Proofs.Compilation
import FilterGraph.Proofs.Construction

/-!
# Sorting for more terminals

Terminals are visited one after the other, and what is sorted stays where it is. So terminals that
are added behind the given ones put their nodes behind the sorted ones.

* `walk_isPrefix`, `foldlM_visit_isPrefix`: a walk only appends nodes;
* `foldlM_visit_of_mem`: terminals whose numbers are sorted change nothing;
* `Graph.Keeps`: a sort that goes on from another, with `keeps_of_sort_append`;
* `Reached.sinks_sublist`, `sinks_eq_distinct`: sinks that feed nothing come in the order in which
  they are first mentioned;
* **`more_terminals_extend`**: all of it for two lists of terminals;
* `collided_disturbs`: nodes of one number that are fed differently. The walk enters one of them, so
  a node can stand above the terminals and not be sorted until it is mentioned itself, and a sink
  can be left out.
-/

namespace FilterGraph.Graph

variable {g : Graph} {ts us : List NodeId} {path : Trail} {s s' : Sorted} {T : List Hop}

/-! ## 1. What is sorted stays -/

/-- **A walk only appends nodes.** -/
theorem walk_isPrefix (h : g.walk path s = .ok s') : s.nodes <+: s'.nodes := by
  fun_induction walk g path s with
  | case1 s =>
    cases h
    exact List.prefix_rfl
  | case2 i path s ih => exact (List.prefix_append s.nodes [i]).trans (ih h)
  | case3 =>
    rename_i ih
    exact ih h
  | case4 => cases h
  | case5 =>
    rename_i ih
    exact ih h

theorem visit_isPrefix {t : NodeId} (h : g.visit s t = .ok s') : s.nodes <+: s'.nodes := by
  unfold visit at h
  split at h
  · cases h
    exact List.prefix_rfl
  · exact walk_isPrefix h

/-- Visiting a list of terminals only appends nodes. -/
theorem foldlM_visit_isPrefix (h : us.foldlM g.visit s = .ok s') : s.nodes <+: s'.nodes := by
  induction us generalizing s with
  | nil =>
    cases h
    exact List.prefix_rfl
  | cons u us ih =>
    rw [List.foldlM_cons] at h
    obtain ⟨s₁, first, rest⟩ := exists_of_bind_eq_ok h
    exact (visit_isPrefix first).trans (ih rest)

/-- **Terminals whose numbers are sorted change nothing**, neither nodes nor outgoing edges. -/
theorem foldlM_visit_of_mem (h : ∀ u ∈ us, g.hash u ∈ s.nodes.map g.hash) :
    us.foldlM g.visit s = .ok s := by
  induction us with
  | nil => rfl
  | cons u us ih =>
    have held : g.visit s u = .ok s := if_pos (holds_iff.mpr (h u List.mem_cons_self))
    rw [List.foldlM_cons, held]
    exact ih fun x hx => h x (List.mem_cons_of_mem _ hx)

/-- A sort for more terminals goes on from the sort for the first of them. -/
theorem sort_append (g : Graph) (ts us : List NodeId) :
    g.sort (ts ++ us) = g.sort ts >>= fun s => us.foldlM g.visit s := List.foldlM_append

theorem sort_append_of_ok (h : g.sort ts = .ok s) :
    g.sort (ts ++ us) = us.foldlM g.visit s := by
  rw [sort_append, h]
  rfl

theorem sort_append_of_error {c : CycleFound} (h : g.sort ts = .error c) :
    g.sort (ts ++ us) = .error c := by
  rw [sort_append, h]
  rfl

/-- One sort goes on from another: what is sorted comes first, and so do its sources, which are
called alike in both commands. -/
structure Keeps (g : Graph) (s s' : Sorted) : Prop where
  nodes : s.nodes <+: s'.nodes
  sources : g.sources s <+: g.sources s'
  names : ∀ (k : Nat) (i : NodeId), (g.sources s)[k]? = some i →
    ∀ (names names' : StreamNames) (l : Label), g.Named s names → g.Named s' names' →
      names.name? (g.hash i) l = some (StreamNames.sourceName k) ∧
      names'.name? (g.hash i) l = some (StreamNames.sourceName k)

/-- **More terminals add nodes behind the sorted ones.** -/
theorem keeps_of_sort_append (h : g.sort ts = .ok s) (h' : g.sort (ts ++ us) = .ok s') :
    g.Keeps s s' := by
  have further := h'
  rw [sort_append_of_ok h] at further
  have nodes := foldlM_visit_isPrefix further
  have sources : g.sources s <+: g.sources s' := nodes.filter _
  refine ⟨nodes, sources, fun k i hi names names' l hn hn' => ?_⟩
  have stays : (g.sources s')[k]? = some i := by
    obtain ⟨more, heq⟩ := sources
    rw [← heq, List.getElem?_append_left (List.getElem?_eq_some_iff.mp hi).1]
    exact hi
  exact ⟨hn.name?_source h hi l, hn'.name?_source h' stays l⟩

/-- Nothing is added exactly when the numbers of the further terminals are sorted. -/
theorem eq_iff_of_sort_append (h : g.sort ts = .ok s) (h' : g.sort (ts ++ us) = .ok s') :
    s' = s ↔ ∀ u ∈ us, g.hash u ∈ s.nodes.map g.hash := by
  constructor
  · rintro rfl u hu
    exact sort_covers h' (List.mem_append_right ts hu)
  · intro held
    rw [sort_append_of_ok h, foldlM_visit_of_mem held] at h'
    exact (Except.ok.inj h').symm

/-- **Terminals that stand above the given ones change nothing** in a coherent graph. -/
theorem sort_append_of_above (hc : g.Coherent ts) (hu : ∀ u ∈ us, g.Above ts u) :
    g.sort (ts ++ us) = g.sort ts := by
  cases h : g.sort ts with
  | error c => exact sort_append_of_error h
  | ok s =>
    rw [sort_append_of_ok h]
    refine foldlM_visit_of_mem fun u hmem => ?_
    exact List.mem_map.mpr (exists_mem_sort hc h (hu u hmem))

/-- The inputs of a command come first in a command for more terminals. -/
theorem inputs_isPrefix {c c' : Command} (h : g.command ts = .ok c)
    (h' : g.command (ts ++ us) = .ok c') : c.inputs <+: c'.inputs := by
  obtain ⟨s, T, names, hcomp⟩ := exists_compiled h
  obtain ⟨s', T', names', hcomp'⟩ := exists_compiled h'
  rw [hcomp.inputs, hcomp'.inputs]
  exact (keeps_of_sort_append hcomp.traversed.sort hcomp'.traversed.sort).sources.map _

/-! ## 2. Sinks in the order of the terminals -/

/-- No sink feeds a node above the terminals. -/
def SinksFeedNothing (g : Graph) (ts : List NodeId) : Prop :=
  ∀ i, g.Above ts i → ∀ e ∈ g.incoming i, (g.node e.supply.node).kind ≠ .sink

theorem SinksFeedNothing.mono (hsub : ∀ t ∈ ts, t ∈ us) (h : g.SinksFeedNothing us) :
    g.SinksFeedNothing ts := fun i hi => h i (hi.mono hsub)

/-- It is enough to look at places that hold the terminals and whatever feeds one of them. -/
theorem SinksFeedNothing.of_closed {l : List NodeId} (hts : ∀ t ∈ ts, t ∈ l)
    (hl : ∀ i ∈ l, ∀ e ∈ g.incoming i,
      e.supply.node ∈ l ∧ (g.node e.supply.node).kind ≠ .sink) : g.SinksFeedNothing ts := by
  intro i hi e he
  have inside := hi.mem_of_closed hts fun i hi e he => (hl i hi e he).1
  exact (hl i inside e he).2

/-- **Sinks come in the order in which terminals are kept.** A sink that feeds nothing is entered as
a terminal only, and then it is the first of its number. -/
theorem Reached.sinks_sublist (hr : g.Reached ts path s T) (hs : g.SinksFeedNothing ts) :
    ((s.nodes ++ entered path).filter fun i => (g.node i).kind = .sink).Sublist
      (g.distinct ts) := by
  induction hr with
  | start => exact List.nil_sublist _
  | pass _ _ ih =>
    have before := ih (hs.mono fun _ => List.mem_append_left _)
    rw [distinct_append_singleton]
    split
    · exact before
    · exact before.trans (List.sublist_append_left _ _)
  | @terminal ts s T t h ht ih =>
    have before := ih (hs.mono fun _ => List.mem_append_left _)
    have fresh : ¬ g.holds (g.distinct ts) (g.hash t) = true := by
      intro held
      obtain ⟨j, hj, hash⟩ := List.mem_map.mp (holds_iff.mp held)
      have met := h.covers j (mem_of_mem_distinct hj)
      rw [entered_nil, List.append_nil, hash] at met
      exact ht met
    rw [entered_nil, List.append_nil] at before
    rw [distinct_append_singleton, if_neg fresh, entered_cons, entered_nil, List.filter_append]
    exact before.append List.filter_sublist
  | finish _ ih => simpa using ih hs
  | skip _ _ ih => exact ih hs
  | enter h _ ih =>
    have inner := hs _ (h.above _ (by simp)) _ h.mem_incoming
    simpa [inner] using ih hs

theorem sinks_sublist (h : g.sort ts = .ok s) (hs : g.SinksFeedNothing ts) :
    (g.sinks s).Sublist (g.distinct ts) := by
  obtain ⟨T, hr⟩ := sort_ok h
  simpa [sinks, ofKind] using hr.sinks_sublist hs

/-- **The sinks are the terminals in the order of their first mention**, when no number of a
terminal is the number of another kind of node. -/
theorem sinks_eq_distinct (h : g.sort ts = .ok s) (hs : g.SinksFeedNothing ts)
    (hk : ∀ t ∈ ts, ∀ i, g.Above ts i → g.hash i = g.hash t → (g.node i).kind = .sink) :
    g.sinks s = g.distinct ts := by
  have sub := sinks_sublist h hs
  have all : ∀ t ∈ g.distinct ts, t ∈ g.sinks s := by
    intro t ht
    have terminal := mem_of_mem_distinct ht
    obtain ⟨i, hi, hash⟩ := List.mem_map.mp (sort_covers h terminal)
    have sink := mem_ofKind.mpr ⟨hi, hk t terminal i (sort_above h i hi) hash⟩
    exact List.inj_on_of_nodup_map (nodup_distinct g ts) (sub.subset sink) ht hash ▸ sink
  have kept : (g.distinct ts).Nodup := (nodup_distinct g ts).of_map
  exact sub.eq_of_length_le (List.subperm_of_subset kept all).length_le

/-! ## 3. More terminals -/

/-- **Terminals extend, never disturb.** A sort that fails goes on to fail with the same error when
terminals are added behind the given ones. One that succeeds keeps its nodes in their places, and
every source keeps its position among the inputs; it is the same sort exactly when the numbers of
the further terminals are sorted, as are those of all nodes above the given terminals if nodes of
one number are fed alike. Sinks that feed nothing come in the order in which they are mentioned
first, and all of them when no other kind of node has their numbers. -/
theorem more_terminals_extend (g : Graph) (ts us : List NodeId) :
    (∀ c, g.sort ts = .error c → g.sort (ts ++ us) = .error c) ∧
    (∀ s s', g.sort ts = .ok s → g.sort (ts ++ us) = .ok s' →
      g.Keeps s s' ∧ (s' = s ↔ ∀ u ∈ us, g.hash u ∈ s.nodes.map g.hash)) ∧
    (∀ c c', g.command ts = .ok c → g.command (ts ++ us) = .ok c' → c.inputs <+: c'.inputs) ∧
    (g.Coherent ts → (∀ u ∈ us, g.Above ts u) → g.sort (ts ++ us) = g.sort ts) ∧
    ∀ s, g.sort ts = .ok s → g.SinksFeedNothing ts →
      (g.sinks s).Sublist (g.distinct ts) ∧
      ((∀ t ∈ ts, ∀ i, g.Above ts i → g.hash i = g.hash t → (g.node i).kind = .sink) →
        g.sinks s = g.distinct ts) := by
  refine ⟨fun c h => sort_append_of_error h, fun s s' h h' => ?_, fun c c' h h' => ?_,
    sort_append_of_above, fun s h hs => ?_⟩
  · exact ⟨keeps_of_sort_append h h', eq_iff_of_sort_append h h'⟩
  · exact inputs_isPrefix h h'
  · exact ⟨sinks_sublist h hs, sinks_eq_distinct h hs⟩

theorem sample_sinksFeedNothing : sample.SinksFeedNothing [4, 5] := by
  refine .of_closed (l := [0, 1, 2, 3, 4, 5]) (by decide) ?_
  rw [sample_eq]
  decide

theorem exists_sample_sort (hts : ∀ t ∈ ts, t ∈ samplePlaces) : ∃ s, sample.sort ts = .ok s := by
  cases h : sample.sort ts with
  | error c => exact absurd (cyclic_of_sort_error h) (sample_not_cyclic hts)
  | ok s => exact ⟨s, rfl⟩

/-- The split and the source of the sample stand above its first two sinks and change nothing. Its
third sink, which takes an output of the split, comes behind what is sorted. -/
theorem more_terminals_extend_sample :
    sample.Coherent [4, 5] ∧ (∀ u ∈ [2, 0], sample.Above [4, 5] u) ∧
    sample.sort ([4, 5] ++ [2, 0]) = sample.sort [4, 5] ∧ sample.SinksFeedNothing [4, 5] ∧
    ∃ s s', sample.sort [4, 5] = .ok s ∧ sample.sort ([4, 5] ++ [6]) = .ok s' ∧
      sample.Keeps s s' ∧ sample.sinks s = sample.distinct [4, 5] := by
  have hc : sample.Collisionless [4, 5] := sample_collisionless (by decide)
  obtain ⟨first, second, third⟩ : ⟨"0", ⟨3, "", none⟩⟩ ∈ sample.incoming 4 ∧
      ⟨"0", ⟨2, "1", none⟩⟩ ∈ sample.incoming 3 ∧
      ⟨"", ⟨0, "", some .video⟩⟩ ∈ sample.incoming 2 := by
    rw [sample_eq]
    decide
  have join : sample.Above [4, 5] 3 := .feeds (.terminal (by decide)) first
  have split : sample.Above [4, 5] 2 := .feeds join second
  have source : sample.Above [4, 5] 0 := .feeds split third
  have above : ∀ u ∈ [2, 0], sample.Above [4, 5] u := by
    intro u hu
    rcases List.mem_cons.mp hu with rfl | hu
    · exact split
    · exact List.mem_singleton.mp hu ▸ source
  obtain ⟨_, _, _, same, ordered⟩ := more_terminals_extend sample [4, 5] [2, 0]
  obtain ⟨_, extended, _⟩ := more_terminals_extend sample [4, 5] [6]
  obtain ⟨s, hs⟩ : ∃ s, sample.sort [4, 5] = .ok s := exists_sample_sort (by decide)
  obtain ⟨s', hs'⟩ : ∃ s, sample.sort ([4, 5] ++ [6]) = .ok s := exists_sample_sort (by decide)
  have kinds : ∀ t ∈ [4, 5], ∀ i, sample.Above [4, 5] i → sample.hash i = sample.hash t →
      (sample.node i).kind = .sink := by
    have all : ∀ t ∈ [4, 5], ∀ i ∈ samplePlaces, sample.hash i = sample.hash t →
        (sample.node i).kind = .sink := by
      rw [sample_eq]
      decide
    exact fun t ht i hi => all t ht i (sample_above (by decide) hi)
  exact ⟨hc.coherent, above, same hc.coherent above, sample_sinksFeedNothing, s, s', hs, hs',
    (extended s s' hs hs').1, (ordered s hs sample_sinksFeedNothing).2 kinds⟩

/-! ## 4. Numbers that collide -/

/-- Two files, one trimmed and one written as it is. The number of the trim is the number of the
second output. -/
def collided : Graph :=
  let (g, a) := Graph.empty.source (some "a700390.mp4") (.options [])
  let (g, x) := g.filter (.one a) "trim" (.options [("start", "747795")])
  let (g, _) := g.output (.one x) (some "out.mp4") (.options [])
  let (g, b) := g.source (some "b287791.mp4") (.options [])
  (g.output (.one b) (some "out881169.mp4") (.options [])).1

theorem number_collided_first : Identity.node Digest.ofJson .source "input" (.options [])
    (some "a700390.mp4") [] = 0xf33966cbe7318f70 := by
  unfold Identity.node Digest.ofJson
  conv => lhs; arg 1; arg 1; cbv
  decide +kernel

theorem number_collided_trim : Identity.node Digest.ofJson .transform "trim"
    (.options [("start", "747795")]) none [⟨"", 0xf33966cbe7318f70, "", none⟩] =
      0xa5e9e95a16600007 := by
  unfold Identity.node Identity.Term.number Digest.ofJson
  simp only [List.map_cons, List.map_nil, List.foldr_cons, List.foldr_nil]
  conv => lhs; arg 1; arg 1; cbv
  conv => lhs; arg 2; arg 1; arg 1; cbv
  decide +kernel

theorem number_collided_output : Identity.node Digest.ofJson .sink "output" (.options [])
    (some "out.mp4") [⟨"", 0xa5e9e95a16600007, "", none⟩] = 0x0f8790efdd64f253 := by
  unfold Identity.node Identity.Term.number Digest.ofJson
  simp only [List.map_cons, List.map_nil, List.foldr_cons, List.foldr_nil]
  conv => lhs; arg 1; arg 1; cbv
  conv => lhs; arg 2; arg 1; arg 1; cbv
  decide +kernel

theorem number_collided_second : Identity.node Digest.ofJson .source "input" (.options [])
    (some "b287791.mp4") [] = 0x0aae704a259be12e := by
  unfold Identity.node Digest.ofJson
  conv => lhs; arg 1; arg 1; cbv
  decide +kernel

theorem number_collided_copy : Identity.node Digest.ofJson .sink "output" (.options [])
    (some "out881169.mp4") [⟨"", 0x0aae704a259be12e, "", none⟩] = 0xa5e9e95a16600007 := by
  unfold Identity.node Identity.Term.number Digest.ofJson
  simp only [List.map_cons, List.map_nil, List.foldr_cons, List.foldr_nil]
  conv => lhs; arg 1; arg 1; cbv
  conv => lhs; arg 2; arg 1; arg 1; cbv
  decide +kernel

/-- The graph with the numbers that its nodes have. -/
theorem collided_eq : collided = ⟨#[
    ⟨.source, "input", .options [], some "a700390.mp4", [], [], 0xf33966cbe7318f70⟩,
    ⟨.transform, "trim", .options [("start", "747795")], none, [⟨"", ⟨0, "", none⟩⟩], [],
      0xa5e9e95a16600007⟩,
    ⟨.sink, "output", .options [], some "out.mp4", [⟨"", ⟨1, "", none⟩⟩], [],
      0x0f8790efdd64f253⟩,
    ⟨.source, "input", .options [], some "b287791.mp4", [], [], 0x0aae704a259be12e⟩,
    ⟨.sink, "output", .options [], some "out881169.mp4", [⟨"", ⟨3, "", none⟩⟩], [],
      0xa5e9e95a16600007⟩]⟩ := by
  have added : collided = (((((Graph.empty.add
      .source "input" (.options []) (some "a700390.mp4") []).1.add
      .transform "trim" (.options [("start", "747795")]) none [⟨"", ⟨0, "", none⟩⟩]).1.add
      .sink "output" (.options []) (some "out.mp4") [⟨"", ⟨1, "", none⟩⟩]).1.add
      .source "input" (.options []) (some "b287791.mp4") []).1.add
      .sink "output" (.options []) (some "out881169.mp4") [⟨"", ⟨3, "", none⟩⟩]).1 := rfl
  rw [added, add_of_number number_collided_first rfl, add_of_number number_collided_trim,
    add_of_number number_collided_output, add_of_number number_collided_second,
    add_of_number number_collided_copy] <;> rfl

/-- **A node above the terminals that is not sorted.** Both terminals are sinks and no sink feeds a
node. The second file stands above the second output, but this output is taken for the trim: the
file is sorted only when it is mentioned itself, and the second output is left out. -/
theorem collided_disturbs :
    collided.SinksFeedNothing [2, 4] ∧ (∀ t ∈ [2, 4], (collided.node t).kind = .sink) ∧
    collided.Above [2, 4] 3 ∧
    ∃ s s', collided.sort [2, 4] = .ok s ∧ collided.sort ([2, 4] ++ [3]) = .ok s' ∧
      s.nodes = [0, 1, 2] ∧ s'.nodes = [0, 1, 2, 3] ∧
      collided.sinks s = [2] ∧ collided.distinct [2, 4] = [2, 4] := by
  have unfed : collided.SinksFeedNothing [2, 4] := by
    refine .of_closed (l := [0, 1, 2, 3, 4]) (by decide) ?_
    rw [collided_eq]
    decide
  have edge : (⟨"", ⟨3, "", none⟩⟩ : Incoming) ∈ collided.incoming 4 := by
    rw [collided_eq]
    decide
  have kinds : ∀ t ∈ [2, 4], (collided.node t).kind = .sink := by
    rw [collided_eq]
    decide
  have kept : collided.distinct [2, 4] = [2, 4] := by
    rw [collided_eq]
    decide
  have first : (collided.sort [2, 4]).map (fun s => (s.nodes, collided.sinks s)) =
      .ok ([0, 1, 2], [2]) := by
    rw [collided_eq]
    cbv
  have second : (collided.sort ([2, 4] ++ [3])).map (fun s => s.nodes) = .ok [0, 1, 2, 3] := by
    rw [collided_eq]
    cbv
  obtain ⟨s, hs, row⟩ := map_eq_ok_iff.mp first
  obtain ⟨s', hs', nodes'⟩ := map_eq_ok_iff.mp second
  obtain ⟨nodes, sinks⟩ := Prod.mk.inj row
  exact ⟨unfed, kinds, .feeds (.terminal (by decide)) edge, s, s', hs, hs', nodes, nodes', sinks,
    kept⟩

end FilterGraph.Graph
