import FilterGraph.Proofs.Naming
import FilterGraph.Proofs.Rows
import Mathlib.Data.List.Permutation

/-!
# How a compilation comes about

The stages of `Graph.command` one by one: what each of them needs to go through, and what a command
is made of when all have.

* `mem_ofKind_hash_iff`: without collisions a number is that of a sorted node of a kind exactly when
  its nodes are of this kind;
* `Named.name?_eq_outputName_iff`: the names of outputs and the places of the table are one;
* `Named.name?_transform`, `Named.name?_sink`: an output of a filter that some edge takes has a
  name, the output of a sink has none;
* `Named.statement_ok`, `Named.outputFragment_ok`: only a supplier that is a sink stops a statement
  or an output;
* `Graph.Compiled`: a command with the sort, the trace and the names it was made from.
-/

namespace FilterGraph

namespace Graph

variable {g : Graph} {ts : List NodeId} {s : Sorted} {T : List Hop} {names : StreamNames}

/-! ## 1. Kinds and numbers -/

/-- **The sorted nodes of a kind are those numbers whose nodes are of this kind.** -/
theorem mem_ofKind_hash_iff (hc : g.Collisionless ts) (h : g.sort ts = .ok s) {u : NodeId}
    (hu : g.Above ts u) (k : NodeKind) :
    g.hash u ∈ (g.ofKind s k).map g.hash ↔ (g.node u).kind = k := by
  constructor
  · intro hm
    obtain ⟨r, hr, hru⟩ := List.mem_map.mp hm
    obtain ⟨hrs, hk⟩ := mem_ofKind.mp hr
    exact (hc r u (sort_above h r hrs) hu hru).kind ▸ hk
  · intro hk
    obtain ⟨r, hr, hru⟩ := exists_mem_sort hc.coherent h hu
    have same := (hc r u (sort_above h r hr) hu hru).kind
    exact hru ▸ List.mem_map_of_mem (mem_ofKind.mpr ⟨hr, same.trans hk⟩)

/-- A node above the terminals is represented among the sorted nodes of its kind. -/
theorem exists_mem_ofKind (hc : g.Collisionless ts) (h : g.sort ts = .ok s) {u : NodeId}
    (hu : g.Above ts u) {k : NodeKind} (hk : (g.node u).kind = k) :
    ∃ r ∈ g.ofKind s k, g.hash r = g.hash u :=
  List.mem_map.mp ((mem_ofKind_hash_iff hc h hu k).mpr hk)

theorem above_of_mem_ofKind (h : g.sort ts = .ok s) {k : NodeKind} {i : NodeId}
    (hi : i ∈ g.ofKind s k) : g.Above ts i := sort_above h i (mem_ofKind.mp hi).1

/-- Suppliers with one number are of one kind. -/
theorem Collisionless.kind_eq (hc : g.Collisionless ts) {u v : NodeId} (hu : g.Above ts u)
    (hv : g.Above ts v) (huv : g.hash u = g.hash v) : (g.node u).kind = (g.node v).kind :=
  (hc u v hu hv huv).kind

/-! ## 2. Names of suppliers -/

/-- **The table holds the outputs of filters that have consumers.** -/
theorem Named.mem_outputs_iff (hn : g.Named s names) (h : g.Traversed ts s T) {d : Digest}
    {l : Label} :
    (d, l) ∈ names.outputs ↔ d ∈ (g.transforms s).map g.hash ∧ g.consumers T d l ≠ [] := by
  rw [hn.outputs_eq h]
  constructor
  · intro hm
    obtain ⟨⟨i, l', cs⟩, hx, heq⟩ := List.mem_map.mp hm
    cases heq
    obtain ⟨hi, hl⟩ := mem_consumedOutputs.mp hx
    obtain ⟨hcs, hne⟩ := h.mem_outgoing_iff.mp hl
    exact ⟨List.mem_map_of_mem hi, hcs ▸ hne⟩
  · rintro ⟨hd, hne⟩
    obtain ⟨i, hi, rfl⟩ := List.mem_map.mp hd
    have hl := h.mem_outgoing_iff.mpr ⟨rfl, hne⟩
    exact List.mem_map.mpr ⟨_, mem_consumedOutputs.mpr ⟨hi, hl⟩, rfl⟩

theorem Named.nodup_outputs (hn : g.Named s names) (h : g.Traversed ts s T) :
    names.outputs.Nodup := by
  rw [hn.outputs_eq h]
  exact h.nodup_outputKeys

/-- **A stream is called `s m` exactly when it stands at place `m` of the table.** -/
theorem Named.name?_eq_outputName_iff (hn : g.Named s names) (h : g.Traversed ts s T) {d : Digest}
    {l : Label} {m : Nat} :
    names.name? d l = some (StreamNames.outputName m) ↔ names.outputs[m]? = some (d, l) := by
  by_cases hd : d ∈ (g.sources s).map g.hash
  · obtain ⟨i, hi, rfl⟩ := List.mem_map.mp hd
    obtain ⟨k, hk⟩ := List.mem_iff_getElem?.mp hi
    rw [hn.name?_source h.sort hk l, Option.some.injEq]
    refine ⟨fun heq => absurd heq (sourceName_ne_outputName k m), fun hm => ?_⟩
    have key := (hn.mem_outputs_iff h).mp (List.mem_of_getElem? hm)
    obtain ⟨j, hj, hji⟩ := List.mem_map.mp key.1
    obtain ⟨his, hsource⟩ := mem_ofKind.mp hi
    obtain ⟨hjs, htransform⟩ := mem_ofKind.mp hj
    rw [eq_of_mem_sort h.sort hjs his hji, hsource] at htransform
    cases htransform
  · rw [hn.name?_of_not_source hd, StreamNames.assigned?]
    constructor
    · intro heq
      split at heq
      · rename_i hm
        rw [Option.some.injEq, outputName_inj] at heq
        rw [← heq, List.getElem?_idxOf hm]
      · cases heq
    · intro hm
      obtain ⟨hlt, hget⟩ := List.getElem?_eq_some_iff.mp hm
      rw [if_pos (List.mem_of_getElem? hm), ← hget, (hn.nodup_outputs h).idxOf_getElem m hlt]

/-- **An output of a filter that has consumers is named by its place in the table.** -/
theorem Named.name?_transform (hn : g.Named s names) (h : g.Traversed ts s T)
    (hc : g.Collisionless ts) {u : NodeId} (hu : g.Above ts u)
    (hk : (g.node u).kind = .transform) {l : Label} (hl : g.consumers T (g.hash u) l ≠ []) :
    (g.hash u, l) ∈ names.outputs ∧ names.name? (g.hash u) l =
      some (StreamNames.outputName (names.outputs.idxOf (g.hash u, l))) := by
  have ht := (mem_ofKind_hash_iff hc h.sort hu .transform).mpr hk
  have hm := (hn.mem_outputs_iff h).mpr ⟨ht, hl⟩
  exact ⟨hm, (hn.name?_eq_outputName_iff h).mpr (List.getElem?_idxOf hm)⟩

/-- **The output of a sink has no name.** -/
theorem Named.name?_sink (hn : g.Named s names) (h : g.Traversed ts s T)
    (hc : g.Collisionless ts) {u : NodeId} (hu : g.Above ts u) (hk : (g.node u).kind = .sink)
    (l : Label) : names.name? (g.hash u) l = none := by
  have hd : g.hash u ∉ (g.sources s).map g.hash := by
    intro hm
    rw [sources, mem_ofKind_hash_iff hc h.sort hu, hk] at hm
    cases hm
  have ho : (g.hash u, l) ∉ names.outputs := by
    intro hm
    rw [hn.mem_outputs_iff h, transforms, mem_ofKind_hash_iff hc h.sort hu, hk] at hm
    cases hm.1
  rw [hn.name?_of_not_source hd, StreamNames.assigned?, if_neg ho]

/-- **A source is named by its position among the sorted sources.** -/
theorem Named.name?_of_source (hn : g.Named s names) (h : g.Traversed ts s T)
    (hc : g.Collisionless ts) {u : NodeId} (hu : g.Above ts u) (hk : (g.node u).kind = .source)
    (l : Label) : ∃ k r, (g.sources s)[k]? = some r ∧ g.hash r = g.hash u ∧
      names.name? (g.hash u) l = some (StreamNames.sourceName k) := by
  obtain ⟨r, hr, hru⟩ := exists_mem_ofKind hc h.sort hu hk
  obtain ⟨k, hk⟩ := List.mem_iff_getElem?.mp hr
  refine ⟨k, r, hk, hru, ?_⟩
  rw [← hru]
  exact hn.name?_source h.sort hk l

/-! ## 3. References and pads -/

theorem reference_eq_ok_iff {final : Bool} {e : Incoming} {r : Reference} :
    g.reference names final e = .ok r ↔
      ∃ name, names.name? (g.hash e.supply.node) e.supply.label = some name ∧
        r = ⟨name, e.supply.selector, final && (g.node e.supply.node).kind = .source⟩ := by
  unfold reference streamName
  cases names.name? (g.hash e.supply.node) e.supply.label <;>
    simp [bind, Except.bind, eq_comm]

theorem name?_of_reference {final : Bool} {e : Incoming} {r : Reference}
    (h : g.reference names final e = .ok r) :
    names.name? (g.hash e.supply.node) e.supply.label = some r.name := by
  obtain ⟨name, hname, rfl⟩ := reference_eq_ok_iff.mp h
  exact hname

theorem pad_eq_ok_iff {i : NodeId} {l : Label} {p : String} :
    g.pad names i l = .ok p ↔
      ∃ name, names.name? (g.hash i) l = some name ∧ p = bracketed name := by
  unfold pad streamName
  cases names.name? (g.hash i) l <;> simp [bind, Except.bind, eq_comm]

theorem statement_eq_ok_iff {i : NodeId} {st : Statement} :
    g.statement s names i = .ok st ↔
      List.Forall₂ (fun e r => g.reference names false e = .ok r) (g.incoming i) st.inputs ∧
      st.expression = filterExpression (g.node i).name (g.node i).params ∧
      List.Forall₂ (fun x p => g.pad names i x.1 = .ok p) (g.outgoingEdges s i) st.pads := by
  obtain ⟨inputs, expression, pads⟩ := st
  unfold statement
  rw [← mapM_eq_ok_iff, ← mapM_eq_ok_iff]
  cases (g.incoming i).mapM (g.reference names false) <;>
    cases (g.outgoingEdges s i).mapM (fun x => g.pad names i x.1) <;>
    simp [bind, Except.bind, eq_comm]

theorem outputFragment_eq_ok_iff {i : NodeId} {f : OutputFragment} :
    g.outputFragment names i = .ok f ↔
      List.Forall₂ (fun e r => g.reference names true e = .ok r) (g.incoming i) f.references ∧
      f.params = (g.node i).params ∧ f.path = (g.node i).path := by
  obtain ⟨references, params, path⟩ := f
  unfold outputFragment
  rw [← mapM_eq_ok_iff]
  cases (g.incoming i).mapM (g.reference names true) <;> simp [bind, Except.bind, eq_comm]

/-! ## 4. What stops a statement or an output -/

/-- The supplier of an edge of a sorted node has a name, unless it is a sink. -/
theorem Named.exists_name (hn : g.Named s names) (h : g.Traversed ts s T)
    (hc : g.Collisionless ts) {i : NodeId} (hi : i ∈ s.nodes) {e : Incoming}
    (he : e ∈ g.incoming i) (hk : (g.node e.supply.node).kind ≠ .sink) :
    ∃ name, names.name? (g.hash e.supply.node) e.supply.label = some name := by
  have hu : g.Above ts e.supply.node := .feeds (sort_above h.sort i hi) he
  cases hkind : (g.node e.supply.node).kind with
  | source =>
    obtain ⟨k, _, _, _, hname⟩ := hn.name?_of_source h hc hu hkind e.supply.label
    exact ⟨_, hname⟩
  | transform =>
    have hl := List.ne_nil_of_mem (h.consumer_mem hi he)
    exact ⟨_, (hn.name?_transform h hc hu hkind hl).2⟩
  | sink => exact absurd hkind hk

/-- References fail at sinks only. -/
theorem Named.references_ok (hn : g.Named s names) (h : g.Traversed ts s T)
    (hc : g.Collisionless ts) {i : NodeId} (hi : i ∈ s.nodes)
    (hk : ∀ e ∈ g.incoming i, (g.node e.supply.node).kind ≠ .sink) (final : Bool) :
    ∃ rs, List.Forall₂ (fun e r => g.reference names final e = .ok r) (g.incoming i) rs := by
  have each : ∀ e ∈ g.incoming i, ∃ r, g.reference names final e = .ok r := by
    intro e he
    obtain ⟨name, hname⟩ := hn.exists_name h hc hi he (hk e he)
    exact ⟨_, reference_eq_ok_iff.mpr ⟨name, hname, rfl⟩⟩
  obtain ⟨rs, hrs⟩ := mapM_ok_of_forall each
  exact ⟨rs, mapM_eq_ok_iff.mp hrs⟩

theorem mem_outgoingEdges_iff {i : NodeId} {x : Label × Consumer} :
    x ∈ g.outgoingEdges s i ↔ ∃ cs, (x.1, cs) ∈ g.outgoing s i ∧ x.2 ∈ cs := by
  obtain ⟨l, c⟩ := x
  simp [outgoingEdges]

/-- Pads never fail. -/
theorem Named.pads_ok (hn : g.Named s names) (h : g.Traversed ts s T)
    (hc : g.Collisionless ts) {i : NodeId} (hi : i ∈ g.transforms s) :
    ∃ ps, List.Forall₂ (fun x p => g.pad names i x.1 = .ok p) (g.outgoingEdges s i) ps := by
  have each : ∀ x ∈ g.outgoingEdges s i, ∃ p, g.pad names i x.1 = .ok p := by
    intro x hx
    obtain ⟨cs, hcs, _⟩ := mem_outgoingEdges_iff.mp hx
    obtain ⟨heq, hne⟩ := h.mem_outgoing_iff.mp hcs
    have hu := above_of_mem_ofKind h.sort hi
    have hname := (hn.name?_transform h hc hu (mem_ofKind.mp hi).2 (heq ▸ hne)).2
    exact ⟨_, pad_eq_ok_iff.mpr ⟨_, hname, rfl⟩⟩
  obtain ⟨ps, hps⟩ := mapM_ok_of_forall each
  exact ⟨ps, mapM_eq_ok_iff.mp hps⟩

/-- **A filter that no sink feeds can be written.** -/
theorem Named.statement_ok (hn : g.Named s names) (h : g.Traversed ts s T)
    (hc : g.Collisionless ts) {i : NodeId} (hi : i ∈ g.transforms s)
    (hk : ∀ e ∈ g.incoming i, (g.node e.supply.node).kind ≠ .sink) :
    ∃ st, g.statement s names i = .ok st := by
  obtain ⟨rs, hrs⟩ := hn.references_ok h hc (mem_ofKind.mp hi).1 hk false
  obtain ⟨ps, hps⟩ := hn.pads_ok h hc hi
  exact ⟨⟨rs, _, ps⟩, statement_eq_ok_iff.mpr ⟨hrs, rfl, hps⟩⟩

/-- **An output that no sink feeds can be written.** -/
theorem Named.outputFragment_ok (hn : g.Named s names) (h : g.Traversed ts s T)
    (hc : g.Collisionless ts) {i : NodeId} (hi : i ∈ g.sinks s)
    (hk : ∀ e ∈ g.incoming i, (g.node e.supply.node).kind ≠ .sink) :
    ∃ f, g.outputFragment names i = .ok f := by
  obtain ⟨rs, hrs⟩ := hn.references_ok h hc (mem_ofKind.mp hi).1 hk true
  exact ⟨⟨rs, _, _⟩, outputFragment_eq_ok_iff.mpr ⟨hrs, rfl, rfl⟩⟩

/-- A reference that was written names no output of a sink. -/
theorem Named.kind_of_reference (hn : g.Named s names) (h : g.Traversed ts s T)
    (hc : g.Collisionless ts) {i : NodeId} (hi : i ∈ s.nodes) {e : Incoming}
    (he : e ∈ g.incoming i) {final : Bool} {r : Reference}
    (hr : g.reference names final e = .ok r) : (g.node e.supply.node).kind ≠ .sink := by
  intro hk
  have hu : g.Above ts e.supply.node := .feeds (sort_above h.sort i hi) he
  have hname := name?_of_reference hr
  rw [hn.name?_sink h hc hu hk] at hname
  cases hname

/-! ## 5. The whole command -/

theorem command_of_sort_error {c : CycleFound} (h : g.sort ts = .error c) :
    g.command ts = .error (.graph (.cycle c.node)) := by
  unfold command sorted
  rw [h]
  rfl

theorem command_of_assign_error (h : g.sort ts = .ok s) {e : GraphError}
    (ha : g.assignNames (g.consumedOutputs s) (g.nameSources (g.sources s) .empty) =
      (names, some e)) : g.command ts = .error (.graph e) := by
  unfold command sorted renderSorted render
  rw [h]
  simp only [Except.mapError, bind, Except.bind, ha]

/-- With all streams named, a command is its statements and its outputs. -/
theorem command_of_named (h : g.sort ts = .ok s) (hn : g.Named s names) :
    g.command ts = ((g.statements s names).bind fun sts =>
      ((g.sinks s).mapM (g.outputFragment names)).map fun fs =>
        ⟨(g.sources s).map g.inputFragment, sts, fs⟩).mapError .unnamed := by
  unfold command sorted renderSorted render
  rw [h]
  simp only [Except.mapError, bind, Except.bind, hn.assigned]
  cases g.statements s names with
  | error u => rfl
  | ok sts => cases (g.sinks s).mapM (g.outputFragment names) <;> rfl

/-- A command and what it was made from. -/
structure Compiled (g : Graph) (ts : List NodeId) (s : Sorted) (T : List Hop)
    (names : StreamNames) (c : Command) : Prop where
  traversed : g.Traversed ts s T
  named : g.Named s names
  inputs : c.inputs = (g.sources s).map g.inputFragment
  statements : List.Forall₂ (fun i st => g.statement s names i = .ok st) (g.transforms s)
    c.statements
  outputs : List.Forall₂ (fun i f => g.outputFragment names i = .ok f) (g.sinks s) c.outputs

/-- **Every command comes about through all stages.** -/
theorem exists_compiled {c : Command} (h : g.command ts = .ok c) :
    ∃ s T names, g.Compiled ts s T names c := by
  cases hs : g.sort ts with
  | error e =>
    rw [command_of_sort_error hs] at h
    cases h
  | ok s =>
    obtain ⟨T, ht⟩ := exists_traversed hs
    rcases ha : g.assignNames (g.consumedOutputs s) (g.nameSources (g.sources s) .empty) with
      ⟨names, _ | e⟩
    · have hn : g.Named s names := ⟨ha⟩
      rw [command_of_named hs hn] at h
      cases hst : g.statements s names with
      | error u => rw [hst] at h; cases h
      | ok sts =>
        cases hf : (g.sinks s).mapM (g.outputFragment names) with
        | error u => rw [hst, hf] at h; cases h
        | ok fs =>
          rw [hst, hf] at h
          cases h
          exact ⟨s, T, names, ht, hn, rfl, mapM_eq_ok_iff.mp hst, mapM_eq_ok_iff.mp hf⟩
    · rw [command_of_assign_error hs ha] at h
      cases h

/-! ## 6. The vector -/

variable {settings : Settings} {streams : List Stream}

theorem compile_eq_error_iff {e : CompileError} :
    g.compile settings streams = .error e ↔ g.command (g.terminals streams) = .error e := by
  unfold compile
  cases g.command (g.terminals streams) <;> simp [Except.map]

theorem compile_eq_ok_iff {args : List String} :
    g.compile settings streams = .ok args ↔
      ∃ c, g.command (g.terminals streams) = .ok c ∧ args = c.arguments settings := by
  unfold compile
  cases g.command (g.terminals streams) <;> simp [Except.map, eq_comm]

/-- The streams behind the sample's first two outputs. -/
def sampleStreams : List Stream := [sample.stream 4 "" none, sample.stream 5 "" none]

/-- The command that they compile to. -/
def sampleCommand : Command := ⟨[⟨.options [("t", "1")], some "in.mp4"⟩],
  [⟨[⟨"0", some .video, false⟩], "split", ["[s0]", "[s1]"]⟩,
    ⟨[⟨"s0", none, false⟩, ⟨"s1", none, false⟩, ⟨"0", none, false⟩], "xstack=inputs=3", ["[s2]"]⟩],
  [⟨[⟨"s2", none, false⟩, ⟨"0", some .audio, true⟩], .options [], some "a.mp4"⟩,
    ⟨[⟨"0", none, true⟩], .options [], some "b.mp4"⟩]⟩

/-- The vector of its arguments. -/
def sampleVector : List String :=
  ["ffmpeg", "-hide_banner", "-t", "1", "-i", "in.mp4", "-filter_complex",
    "[0:v]split[s0][s1];[s0][s1][0]xstack=inputs=3[s2]", "-map", "[s2]", "-map", "0:a", "a.mp4",
    "b.mp4", "-y"]

theorem sample_compile : sample.compile .standard sampleStreams = .ok sampleVector := by
  have command : sample.command (sample.terminals sampleStreams) = .ok sampleCommand := by
    rw [sampleStreams, sample_eq]
    cbv
  exact compile_eq_ok_iff.mpr ⟨sampleCommand, command, rfl⟩

end Graph

end FilterGraph
