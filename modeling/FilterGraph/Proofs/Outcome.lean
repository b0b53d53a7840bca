import FilterGraph.Proofs.Compilation

/-!
# The outcome of a compilation

A compilation fails for three reasons, which are looked for in this order: a cycle, a filter output
with several consumers, an edge that comes from a sink. Each of them is said here of the graph
alone, without the sort and the tables that the compilation keeps.

* `Graph.Cyclic` (module `Reach`), `Graph.SharesOutput`, `Graph.FedBySink`: the three reasons;
* `Graph.FirstShared`: which output the second failure names, and with which consumers;
* `command_of_cyclic`, `command_of_sharesOutput`, `Named.command_of_fedBySink`, `Named.command_ok`:
  what comes out in each of the four cases;
* **`compile_outcome`**: the four cases for a list of streams, and the compilation that keeps
  faults.
-/

namespace FilterGraph.Graph

variable {g : Graph} {ts : List NodeId} {s : Sorted} {T : List Hop} {names : StreamNames}

/-! ## 1. The three reasons -/

/-- Some filter above the terminals has an output that two edges take. -/
def SharesOutput (g : Graph) (ts : List NodeId) : Prop :=
  ∃ t l, g.Above ts t ∧ (g.node t).kind = .transform ∧ g.Shared ts (g.hash t) l

/-- Some filter or sink above the terminals has an edge from a sink. -/
def FedBySink (g : Graph) (ts : List NodeId) : Prop :=
  ∃ i e, g.Above ts i ∧ ((g.node i).kind = .transform ∨ (g.node i).kind = .sink) ∧
    e ∈ g.incoming i ∧ (g.node e.supply.node).kind = .sink

/-- Output `l` of filter `t` is the first that two edges take, in the order of the sort and, for the
one filter, of its outgoing edges; `cs` are all its consumers in the order of the trace. -/
structure FirstShared (g : Graph) (ts : List NodeId) (s : Sorted) (T : List Hop) (t : NodeId)
    (l : Label) (cs : List Consumer) : Prop where
  traversed : g.Traversed ts s T
  shared : g.Shared ts (g.hash t) l
  filter : ∃ pre post, g.transforms s = pre ++ t :: post ∧
    ∀ t' ∈ pre, ∀ l', ¬ g.Shared ts (g.hash t') l'
  label : ∃ pre post, (g.outgoing s t).map (·.1) = pre ++ l :: post ∧
    ∀ l' ∈ pre, ¬ g.Shared ts (g.hash t) l'
  consumers : cs = g.consumers T (g.hash t) l

/-! ## 2. Shared outputs in the tables -/

/-- A member of a list of lists stands in one of them, with all earlier ones in front. -/
theorem flatMap_split {α β : Type} {f : α → List β} {l : List α} {pre post : List β} {x : β}
    (h : l.flatMap f = pre ++ x :: post) :
    ∃ l₁ a l₂ p q, l = l₁ ++ a :: l₂ ∧ f a = p ++ x :: q ∧ pre = l₁.flatMap f ++ p := by
  induction l generalizing pre with
  | nil => simp at h
  | cons a l ih =>
    rw [List.flatMap_cons, List.append_eq_append_iff] at h
    rcases h with ⟨mid, hpre, hrest⟩ | ⟨mid, hfa, hrest⟩
    · obtain ⟨l₁, b, l₂, p, q, rfl, hb, rfl⟩ := ih hrest
      exact ⟨a :: l₁, b, l₂, p, q, rfl, hb, by rw [hpre, List.flatMap_cons, List.append_assoc]⟩
    · cases mid with
      | nil =>
        have hnil : l.flatMap f = [] ++ x :: post := hrest.symm
        obtain ⟨l₁, b, l₂, p, q, rfl, hb, hp⟩ := ih hnil
        refine ⟨a :: l₁, b, l₂, p, q, rfl, hb, ?_⟩
        rw [List.append_nil] at hfa
        rw [List.flatMap_cons, List.append_assoc, ← hp, List.append_nil, hfa]
      | cons y mid =>
        cases hrest
        exact ⟨[], a, l, pre, mid, rfl, hfa, rfl⟩

/-- A shared output is recorded with its consumers, of which there are several. -/
theorem Traversed.mem_outgoing_of_shared (h : g.Traversed ts s T) (hc : g.Coherent ts)
    {i : NodeId} {l : Label} (hs : g.Shared ts (g.hash i) l) :
    (l, g.consumers T (g.hash i) l) ∈ g.outgoing s i ∧
      1 < (g.consumers T (g.hash i) l).length := by
  have two := (h.shared_iff hc (g.hash i) l).mpr hs
  refine ⟨h.mem_outgoing_iff.mpr ⟨rfl, fun hnil => ?_⟩, two⟩
  rw [hnil] at two
  exact absurd two (by decide)

/-- **Where naming stops, the first shared output is.** -/
theorem Traversed.firstShared (h : g.Traversed ts s T) (hc : g.Coherent ts)
    {pre post : List (NodeId × Label × List Consumer)} {t : NodeId} {l : Label}
    {cs : List Consumer} (heq : g.consumedOutputs s = pre ++ (t, l, cs) :: post)
    (hpre : ∀ x ∈ pre, x.2.2.length ≤ 1) (hcs : 1 < cs.length) :
    g.FirstShared ts s T t l cs := by
  obtain ⟨ts₁, t', ts₂, p, q, htrans, hrow, hpre'⟩ := flatMap_split heq
  obtain ⟨o₁, o₂', hout, ho₁, ho₂⟩ := List.map_eq_append_iff.mp hrow
  obtain ⟨o, o₂, rfl, ho, _⟩ := List.map_eq_cons_iff.mp ho₂
  cases ho
  have hmem : o ∈ g.outgoing s t := by rw [hout]; simp
  obtain ⟨hcons, _⟩ := h.mem_outgoing_iff.mp hmem
  have single : ∀ i l', (i, l', g.consumers T (g.hash i) l') ∈ pre →
      ¬ g.Shared ts (g.hash i) l' := by
    intro i l' hm hs
    exact absurd (hpre _ hm) (Nat.not_le.mpr (h.mem_outgoing_of_shared hc hs).2)
  refine ⟨h, (h.shared_iff hc _ _).mp (hcons ▸ hcs), ⟨ts₁, ts₂, htrans, ?_⟩,
    ⟨o₁.map (·.1), o₂.map (·.1), by rw [hout]; simp, ?_⟩, hcons⟩
  · intro t' ht' l' hs
    refine single t' l' ?_ hs
    rw [hpre']
    refine List.mem_append_left _ (List.mem_flatMap.mpr ⟨t', ht', ?_⟩)
    exact List.mem_map_of_mem (h.mem_outgoing_of_shared hc hs).1
  · intro l' hl' hs
    obtain ⟨o', ho', rfl⟩ := List.mem_map.mp hl'
    have hm : o' ∈ g.outgoing s t := by rw [hout]; exact List.mem_append_left _ ho'
    refine single t o'.1 ?_ hs
    rw [hpre', ← (h.mem_outgoing_iff.mp hm).1]
    refine List.mem_append_right _ ?_
    rw [← ho₁]
    exact List.mem_map_of_mem ho'

/-- When all streams are named no output is shared. -/
theorem Named.not_sharesOutput (hn : g.Named s names) (h : g.Traversed ts s T)
    (hc : g.Collisionless ts) : ¬ g.SharesOutput ts := by
  rintro ⟨t, l, ht, hk, hs⟩
  obtain ⟨r, hr, hrt⟩ := exists_mem_ofKind hc h.sort ht hk
  rw [← hrt] at hs
  obtain ⟨hm, two⟩ := h.mem_outgoing_of_shared hc.coherent hs
  exact absurd (hn.single hr hm) (Nat.not_le.mpr two)

/-! ## 3. The four cases -/

theorem command_of_cyclic (hc : g.Coherent ts) (h : g.Cyclic ts) :
    ∃ u, g.command ts = .error (.graph (.cycle u)) := by
  obtain ⟨c, hs⟩ := (sort_eq_error_iff_cyclic hc).mpr h
  exact ⟨c.node, command_of_sort_error hs⟩

/-- Without a cycle there is a sort, and its streams are all named or it has a shared output. -/
theorem named_or_shared (hc : g.Collisionless ts) (ha : ¬ g.Cyclic ts) :
    (∃ s T names, g.Traversed ts s T ∧ g.Named s names) ∨
      ∃ s T t l cs, g.FirstShared ts s T t l cs ∧ t ∈ g.transforms s ∧
        g.command ts = .error (.graph (.multipleConsumers t l cs)) := by
  cases hs : g.sort ts with
  | error c => exact absurd (cyclic_of_sort_error hs) ha
  | ok s =>
    obtain ⟨T, h⟩ := exists_traversed hs
    rcases hassign : g.assignNames (g.consumedOutputs s) (g.nameSources (g.sources s) .empty) with
      ⟨names, _ | e⟩
    · exact .inl ⟨s, T, names, h, ⟨hassign⟩⟩
    · obtain ⟨pre, t, l, cs, post, heq, hpre, hcs, rfl⟩ := assignNames_eq_some hassign
      have ht : t ∈ g.transforms s := by
        have hmem : (t, l, cs) ∈ g.consumedOutputs s := by rw [heq]; simp
        exact (mem_consumedOutputs.mp hmem).1
      exact .inr ⟨s, T, t, l, cs, h.firstShared hc.coherent heq hpre hcs, ht,
        command_of_assign_error hs hassign⟩

theorem command_of_sharesOutput (hc : g.Collisionless ts) (ha : ¬ g.Cyclic ts)
    (h : g.SharesOutput ts) : ∃ s T t l cs, g.FirstShared ts s T t l cs ∧
      g.command ts = .error (.graph (.multipleConsumers t l cs)) := by
  rcases named_or_shared hc ha with ⟨s, T, names, ht, hn⟩ | ⟨s, T, t, l, cs, hfirst, _, heq⟩
  · exact absurd h (hn.not_sharesOutput ht hc)
  · exact ⟨s, T, t, l, cs, hfirst, heq⟩

theorem named_of_not_sharesOutput (hc : g.Collisionless ts) (ha : ¬ g.Cyclic ts)
    (h : ¬ g.SharesOutput ts) : ∃ s T names, g.Traversed ts s T ∧ g.Named s names := by
  rcases named_or_shared hc ha with hnamed | ⟨s, T, t, l, cs, hfirst, ht, _⟩
  · exact hnamed
  · have hk := (mem_ofKind.mp ht).2
    exact absurd ⟨t, l, above_of_mem_ofKind hfirst.traversed.sort ht, hk, hfirst.shared⟩ h

/-- An edge from a sink stops the statement or the output that it enters. -/
theorem Named.command_of_fedBySink (hn : g.Named s names) (h : g.Traversed ts s T)
    (hc : g.Collisionless ts) (hf : g.FedBySink ts) :
    ∃ u, g.command ts = .error (.unnamed u) := by
  obtain ⟨i, e, hi, hkind, he, hsink⟩ := hf
  obtain ⟨r, hr, hri, e', he', hterm⟩ := exists_mem_sort_edge hc.coherent h.sort hi he
  have hra := sort_above h.sort r hr
  have hsink' : (g.node e'.supply.node).kind = .sink :=
    (hc.kind_eq (.feeds hra he') (.feeds hi he)
      (congrArg Identity.Term.supplier hterm)).trans hsink
  have stops : ∀ final ref, g.reference names final e' ≠ .ok ref :=
    fun final ref href => hn.kind_of_reference h hc hr he' href hsink'
  rw [command_of_named h.sort hn]
  cases hst : g.statements s names with
  | error u => exact ⟨u, rfl⟩
  | ok sts =>
    cases hfs : (g.sinks s).mapM (g.outputFragment names) with
    | error u => exact ⟨u, rfl⟩
    | ok fs =>
      exfalso
      rw [← hc.kind_eq hra hi hri] at hkind
      rcases hkind with hk | hk
      · obtain ⟨st, _, hstat⟩ :=
          exists_mem_of_forall₂ (mapM_eq_ok_iff.mp hst) (mem_ofKind.mpr ⟨hr, hk⟩)
        obtain ⟨ref, _, href⟩ := exists_mem_of_forall₂ (statement_eq_ok_iff.mp hstat).1 he'
        exact stops _ _ href
      · obtain ⟨f, _, hfrag⟩ :=
          exists_mem_of_forall₂ (mapM_eq_ok_iff.mp hfs) (mem_ofKind.mpr ⟨hr, hk⟩)
        obtain ⟨ref, _, href⟩ := exists_mem_of_forall₂ (outputFragment_eq_ok_iff.mp hfrag).1 he'
        exact stops _ _ href

/-- With all streams named and no edge from a sink there is a command. -/
theorem Named.command_ok (hn : g.Named s names) (h : g.Traversed ts s T)
    (hc : g.Collisionless ts) (hf : ¬ g.FedBySink ts) : ∃ c, g.command ts = .ok c := by
  have fed : ∀ i ∈ s.nodes, ((g.node i).kind = .transform ∨ (g.node i).kind = .sink) →
      ∀ e ∈ g.incoming i, (g.node e.supply.node).kind ≠ .sink :=
    fun i hi hk e he hsink => hf ⟨i, e, sort_above h.sort i hi, hk, he, hsink⟩
  obtain ⟨sts, hsts⟩ : ∃ sts, g.statements s names = .ok sts := by
    refine mapM_ok_of_forall fun i hi => hn.statement_ok h hc hi ?_
    obtain ⟨his, hk⟩ := mem_ofKind.mp hi
    exact fed i his (.inl hk)
  obtain ⟨fs, hfs⟩ : ∃ fs, (g.sinks s).mapM (g.outputFragment names) = .ok fs := by
    refine mapM_ok_of_forall fun i hi => hn.outputFragment_ok h hc hi ?_
    obtain ⟨his, hk⟩ := mem_ofKind.mp hi
    exact fed i his (.inr hk)
  rw [command_of_named h.sort hn, hsts, hfs]
  exact ⟨_, rfl⟩

/-! ## 4. Compiling streams -/

variable {settings : Settings} {streams : List Stream}

/-- Which of the four outcomes a compilation has, with the reason for it. -/
inductive Outcome (g : Graph) (settings : Settings) (streams : List Stream) : Prop where
  | cyclic (u : NodeId) (h : g.Cyclic (g.terminals streams))
      (heq : g.compile settings streams = .error (.graph (.cycle u)))
  | shared (s : Sorted) (T : List Hop) (t : NodeId) (l : Label) (cs : List Consumer)
      (ha : ¬ g.Cyclic (g.terminals streams)) (h : g.SharesOutput (g.terminals streams))
      (hf : g.FirstShared (g.terminals streams) s T t l cs)
      (heq : g.compile settings streams = .error (.graph (.multipleConsumers t l cs)))
  | fedBySink (u : Unnamed) (ha : ¬ g.Cyclic (g.terminals streams))
      (hs : ¬ g.SharesOutput (g.terminals streams)) (h : g.FedBySink (g.terminals streams))
      (heq : g.compile settings streams = .error (.unnamed u))
  | vector (args : List String) (ha : ¬ g.Cyclic (g.terminals streams))
      (hs : ¬ g.SharesOutput (g.terminals streams)) (hf : ¬ g.FedBySink (g.terminals streams))
      (heq : g.compile settings streams = .ok args)

/-- **There is no other outcome.** -/
theorem outcome_exists (hc : g.Collisionless (g.terminals streams)) :
    g.Outcome settings streams := by
  by_cases ha : g.Cyclic (g.terminals streams)
  · obtain ⟨u, heq⟩ := command_of_cyclic hc.coherent ha
    exact .cyclic u ha (compile_eq_error_iff.mpr heq)
  by_cases hs : g.SharesOutput (g.terminals streams)
  · obtain ⟨s, T, t, l, cs, hfirst, heq⟩ := command_of_sharesOutput hc ha hs
    exact .shared s T t l cs ha hs hfirst (compile_eq_error_iff.mpr heq)
  obtain ⟨s, T, names, ht, hn⟩ := named_of_not_sharesOutput hc ha hs
  by_cases hf : g.FedBySink (g.terminals streams)
  · obtain ⟨u, heq⟩ := hn.command_of_fedBySink ht hc hf
    exact .fedBySink u ha hs hf (compile_eq_error_iff.mpr heq)
  · obtain ⟨c, heq⟩ := hn.command_ok ht hc hf
    exact .vector _ ha hs hf (compile_eq_ok_iff.mpr ⟨c, heq, rfl⟩)

/-- **A compilation stops at a cycle; without one, at the first shared output; without either, at an
edge from a sink; and gives a vector otherwise.** The compilation that keeps faults keeps those of
the first two kinds, lets the third through and gives the same vector. -/
theorem compile_outcome (hc : g.Collisionless (g.terminals streams)) :
    ((∃ u, g.compile settings streams = .error (.graph (.cycle u))) ↔
      g.Cyclic (g.terminals streams)) ∧
    (¬ g.Cyclic (g.terminals streams) →
      ((∃ t l cs, g.compile settings streams = .error (.graph (.multipleConsumers t l cs))) ↔
        g.SharesOutput (g.terminals streams))) ∧
    (∀ t l cs, g.compile settings streams = .error (.graph (.multipleConsumers t l cs)) →
      ∃ s T, g.FirstShared (g.terminals streams) s T t l cs) ∧
    (¬ g.Cyclic (g.terminals streams) → ¬ g.SharesOutput (g.terminals streams) →
      ((∃ u, g.compile settings streams = .error (.unnamed u)) ↔
        g.FedBySink (g.terminals streams))) ∧
    (¬ g.Cyclic (g.terminals streams) → ¬ g.SharesOutput (g.terminals streams) →
      ¬ g.FedBySink (g.terminals streams) → ∃ args, g.compile settings streams = .ok args) ∧
    (∀ e, g.outcome settings streams = .ok (.error e) ↔
      g.compile settings streams = .error (.graph e)) ∧
    (∀ u, g.outcome settings streams = .error u ↔
      g.compile settings streams = .error (.unnamed u)) ∧
    ∀ args, g.outcome settings streams = .ok (.ok args) ↔
      g.compile settings streams = .ok args := by
  have kept : (∀ e, g.outcome settings streams = .ok (.error e) ↔
        g.compile settings streams = .error (.graph e)) ∧
      (∀ u, g.outcome settings streams = .error u ↔
        g.compile settings streams = .error (.unnamed u)) ∧
      ∀ args, g.outcome settings streams = .ok (.ok args) ↔
        g.compile settings streams = .ok args := by
    unfold outcome
    rcases g.compile settings streams with (e | u) | args <;> simp
  have out : g.Outcome settings streams := outcome_exists hc
  cases out with
  | cyclic u h heq =>
    exact ⟨by simp [heq, h], fun ha => absurd h ha, by simp [heq], fun ha => absurd h ha,
      fun ha => absurd h ha, kept⟩
  | shared s T t l cs ha h hf heq =>
    refine ⟨by simp [heq, ha], fun _ => by simp [heq, h], ?_, fun _ hs => absurd h hs,
      fun _ hs => absurd h hs, kept⟩
    intro t' l' cs' heq'
    rw [heq] at heq'
    cases heq'
    exact ⟨s, T, hf⟩
  | fedBySink u ha hs h heq =>
    exact ⟨by simp [heq, ha], fun _ => by simp [heq, hs], by simp [heq],
      fun _ _ => by simp [heq, h], fun _ _ hf => absurd h hf, kept⟩
  | vector args ha hs hf heq =>
    exact ⟨by simp [heq, ha], fun _ => by simp [heq, hs], by simp [heq],
      fun _ _ => by simp [heq, hf], fun _ _ _ => ⟨args, heq⟩, kept⟩

/-- The sample's third sink takes an output of the split that the join takes as well. -/
theorem compile_outcome_sample :
    sample.Collisionless (sample.terminals [sample.stream 4 "" none, sample.stream 6 "" none]) ∧
    ((∃ u, sample.compile .standard [sample.stream 4 "" none, sample.stream 6 "" none] =
        .error (.graph (.cycle u))) ↔
      sample.Cyclic (sample.terminals [sample.stream 4 "" none, sample.stream 6 "" none])) ∧
    ∃ s T, sample.FirstShared
      (sample.terminals [sample.stream 4 "" none, sample.stream 6 "" none]) s T 2 "1"
      [⟨3, "0", none⟩, ⟨6, "", none⟩] := by
  have hc : sample.Collisionless
      (sample.terminals [sample.stream 4 "" none, sample.stream 6 "" none]) :=
    sample_collisionless (sample_terminals (by decide))
  have out := @compile_outcome sample .standard
    [sample.stream 4 "" none, sample.stream 6 "" none] hc
  have shared : sample.compile .standard [sample.stream 4 "" none, sample.stream 6 "" none] =
      .error (.graph (.multipleConsumers 2 "1" [⟨3, "0", none⟩, ⟨6, "", none⟩])) := by
    rw [sample_eq]
    cbv
  exact ⟨hc, out.1, out.2.2.1 2 "1" [⟨3, "0", none⟩, ⟨6, "", none⟩] shared⟩

end FilterGraph.Graph
