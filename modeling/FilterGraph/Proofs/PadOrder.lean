import FilterGraph.Proofs.Construction
import FilterGraph.Proofs.Links

/-!
# The order of the pads of a filter

The pads of a statement have no labels: what stands first is the first output of the filter. Their
order is the order in which the walk follows the edges that take the outputs, and the labels do not
enter into it.

* `Graph.takenLabels`: the labels of the outputs of a number, in the order in which they are taken;
* `keys_outlets`: the record of a node has its labels in this order, if none is taken twice;
* **`pads_follow_walk`**: so do the pads of its statement; they follow the labels exactly when the
  walk does;
* `pads_against_labels`: the walk need not.
-/

namespace FilterGraph.Graph

variable {g : Graph} {ts : List NodeId} {s : Sorted} {T : List Hop} {names : StreamNames}
  {c : Command} {d : Digest}

/-! ## 1. Labels as they are taken -/

/-- The labels of the outputs of the node numbered `d`, in the order in which the edges of a trace
take them. -/
def takenLabels (g : Graph) (T : List Hop) (d : Digest) : List Label :=
  (T.filter fun x => g.hash x.2.supply.node = d).map fun x => x.2.supply.label

theorem takenLabels_snoc (T : List Hop) (x : Hop) (d : Digest) :
    g.takenLabels (T ++ [x]) d =
      if d = g.hash x.2.supply.node then g.takenLabels T d ++ [x.2.supply.label]
      else g.takenLabels T d := by
  unfold takenLabels
  rw [List.filter_append, List.map_append]
  split
  · rename_i h
    simp [h]
  · rename_i h
    simp [Ne.symm h]

/-- A label is taken as often as its output has consumers. -/
theorem count_takenLabels (T : List Hop) (d : Digest) (l : Label) :
    (g.takenLabels T d).count l = (g.consumers T d l).length := by
  unfold takenLabels consumers
  rw [List.length_map, ← List.countP_eq_length_filter, List.count_eq_countP, List.countP_map,
    List.countP_filter]
  refine List.countP_congr fun x _ => ?_
  simp [takes, and_comm]

/-- **The record has the labels in the order in which they are taken**, when no label is taken
twice. -/
theorem keys_outlets (h : (g.takenLabels T d).Nodup) :
    Entries.keys (g.outlets T d) = g.takenLabels T d := by
  induction T using List.reverseRecOn with
  | nil => rfl
  | append_singleton T x ih =>
    rw [takenLabels_snoc] at h ⊢
    rw [outlets_snoc]
    by_cases hd : d = g.hash x.2.supply.node
    · rw [if_pos hd] at h ⊢
      obtain ⟨before, _, apart⟩ := List.nodup_append.mp h
      have new : x.2.supply.label ∉ g.takenLabels T d := fun hm =>
        apart _ hm _ (List.mem_singleton_self _) rfl
      rw [if_pos hd, Entries.keys_modify, ih before, if_neg new]
    · rw [if_neg hd] at h ⊢
      rw [if_neg hd]
      exact ih h

/-! ## 2. Labels of a filter -/

theorem Named.nodup_takenLabels (hn : g.Named s names) (h : g.Traversed ts s T) {i : NodeId}
    (hi : i ∈ g.transforms s) : (g.takenLabels T (g.hash i)).Nodup := by
  refine List.nodup_iff_count_le_one.mpr fun l => ?_
  rw [count_takenLabels]
  by_cases hnil : g.consumers T (g.hash i) l = []
  · rw [hnil]
    exact Nat.zero_le 1
  · exact hn.single hi (h.mem_outgoing_iff.mpr ⟨rfl, hnil⟩)

/-- What is taken of a filter has a name that nothing else of it has. -/
theorem Named.name?_inj (hn : g.Named s names) (h : g.Traversed ts s T) {i : NodeId}
    (hi : i ∈ g.transforms s) {l l' : Label} (hl : l ∈ g.takenLabels T (g.hash i))
    (heq : names.name? (g.hash i) l = names.name? (g.hash i) l') : l = l' := by
  have taken : g.consumers T (g.hash i) l ≠ [] := by
    have pos := List.count_pos_iff.mpr hl
    rw [count_takenLabels] at pos
    exact List.ne_nil_of_length_pos pos
  have mem : (g.hash i, l) ∈ names.outputs :=
    (hn.mem_outputs_iff h).mpr ⟨List.mem_map_of_mem hi, taken⟩
  have place := List.getElem?_idxOf mem
  have name := (hn.name?_eq_outputName_iff h).mpr place
  have other := (hn.name?_eq_outputName_iff h).mp (heq ▸ name)
  rw [place] at other
  cases other
  rfl

/-- **The pads of a statement are the names of the labels as they are taken.** -/
theorem Compiled.pads_takenLabels (h : g.Compiled ts s T names c) {i : NodeId}
    (hi : i ∈ g.transforms s) {st : Statement} (hst : g.statement s names i = .ok st) :
    st.pads.map some = (g.takenLabels T (g.hash i)).map fun l =>
      (names.name? (g.hash i) l).map bracketed := by
  have keys := keys_outlets (h.named.nodup_takenLabels h.traversed hi)
  rw [h.pads_statement hi hst, h.traversed.outgoing_eq, ← keys, Entries.keys, List.map_map]
  rfl

/-- The names of a filter's labels stand in some order of these labels only if the labels are taken
in this order. -/
theorem Compiled.names_in_order_iff (h : g.Compiled ts s T names c) {i : NodeId}
    (hi : i ∈ g.transforms s) {ls : List Label} (hp : (g.takenLabels T (g.hash i)).Perm ls) :
    ((g.takenLabels T (g.hash i)).map fun l => (names.name? (g.hash i) l).map bracketed) =
        (ls.map fun l => (names.name? (g.hash i) l).map bracketed) ↔
      g.takenLabels T (g.hash i) = ls := by
  refine ⟨fun heq => eq_of_perm_of_map_eq hp heq ?_, fun heq => by rw [heq]⟩
  refine (h.named.nodup_takenLabels h.traversed hi).map_on fun l hl l' _ hll' => ?_
  have same := Option.map_injective (fun _ _ => bracketed_inj.mp) hll'
  exact h.named.name?_inj h.traversed hi hl same

/-! ## 3. Pads and labels -/

variable {settings : Settings} {streams : List Stream}

/-- **The pads of every filter stand in the order in which the walk takes its outputs.** When the
outputs that are taken are those numbered below `k`, the pad at place `i` is the name of the output
labelled `i` for all of them exactly if the walk takes them in the order of their numbers. -/
theorem pads_follow_walk {args : List String} (h : g.compile settings streams = .ok args) :
    ∃ s T names c, g.Compiled (g.terminals streams) s T names c ∧ args = c.arguments settings ∧
      List.Forall₂ (fun t st =>
        (g.takenLabels T (g.hash t)).Nodup ∧
        (st.pads.map some = (g.takenLabels T (g.hash t)).map fun l =>
          (names.name? (g.hash t) l).map bracketed) ∧
        ∀ k : Nat, (g.takenLabels T (g.hash t)).Perm ((List.range k).map toString) →
          ((st.pads.map some = (List.range k).map fun i =>
              (names.name? (g.hash t) (toString i)).map bracketed) ↔
            g.takenLabels T (g.hash t) = (List.range k).map toString))
        (g.transforms s) c.statements := by
  obtain ⟨c, hcom, rfl⟩ := compile_eq_ok_iff.mp h
  obtain ⟨s, T, names, hcomp⟩ := exists_compiled hcom
  refine ⟨s, T, names, c, hcomp, rfl, forall₂_imp_mem hcomp.statements fun t ht st hst => ?_⟩
  have pads := hcomp.pads_takenLabels ht hst
  refine ⟨hcomp.named.nodup_takenLabels hcomp.traversed ht, pads, fun k hk => ?_⟩
  have order := hcomp.names_in_order_iff ht hk
  rw [List.map_map] at order
  rw [pads]
  exact order

/-- The sample's split and its join. -/
theorem pads_follow_walk_sample :
    sample.compile .standard sampleStreams = .ok sampleVector ∧
    ∃ s T names c, sample.Compiled (sample.terminals sampleStreams) s T names c ∧
      sampleVector = c.arguments .standard ∧
      List.Forall₂ (fun t st => st.pads.map some = (sample.takenLabels T (sample.hash t)).map
        fun l => (names.name? (sample.hash t) l).map bracketed) (sample.transforms s)
        c.statements := by
  obtain ⟨s, T, names, c, hcomp, heq, rows⟩ := pads_follow_walk sample_compile
  exact ⟨sample_compile, s, T, names, c, hcomp, heq, rows.imp fun _ _ row => row.2.1⟩

/-- The command of the split whose second output is taken first. -/
def crossedCommand : Command := ⟨[⟨.options [], some "in.mp4"⟩],
  [⟨[⟨"0", none, false⟩], "split", ["[s0]", "[s1]"]⟩],
  [⟨[⟨"s0", none, false⟩, ⟨"s1", none, false⟩], .options [], some "out.mp4"⟩]⟩

/-- Its arguments. -/
def crossedVector : List String := ["ffmpeg", "-hide_banner", "-i", "in.mp4", "-filter_complex",
  "[0]split[s0][s1]", "-map", "[s0]", "-map", "[s1]", "out.mp4", "-y"]

theorem crossed_command :
    crossed.command (crossed.terminals [crossed.stream 2 "" none]) = .ok crossedCommand := by
  rw [crossed_eq]
  cbv

theorem crossed_compile :
    crossed.compile .standard [crossed.stream 2 "" none] = .ok crossedVector :=
  compile_eq_ok_iff.mpr ⟨_, crossed_command, rfl⟩

/-- **The walk need not take the outputs in the order of their labels**: here the first pad is the
name of the output labelled `1`. -/
theorem pads_against_labels :
    crossed.compile .standard [crossed.stream 2 "" none] = .ok crossedVector ∧
    ∃ s T names,
      crossed.Compiled (crossed.terminals [crossed.stream 2 "" none]) s T names crossedCommand ∧
      1 ∈ crossed.transforms s ∧
      (crossed.takenLabels T (crossed.hash 1)).Perm ((List.range 2).map toString) ∧
      ∃ st, crossedCommand.statements = [st] ∧ crossed.statement s names 1 = .ok st ∧
        st.pads.map some ≠ (List.range 2).map fun i =>
          (names.name? (crossed.hash 1) (toString i)).map bracketed := by
  have sorted : ((crossed.sort (crossed.terminals [crossed.stream 2 "" none])).map fun s =>
      (crossed.transforms s, (crossed.outgoing s 1).map (·.1))) = .ok ([1], ["1", "0"]) := by
    rw [crossed_eq]
    cbv
  obtain ⟨s, T, names, hcomp⟩ := exists_compiled crossed_command
  rw [hcomp.traversed.sort] at sorted
  obtain ⟨transforms, labels⟩ := Prod.mk.inj (Except.ok.inj sorted)
  have filter : 1 ∈ crossed.transforms s := transforms ▸ List.mem_singleton_self 1
  have taken : crossed.takenLabels T (crossed.hash 1) = ["1", "0"] := by
    rw [← keys_outlets (hcomp.named.nodup_takenLabels hcomp.traversed filter),
      ← hcomp.traversed.outgoing_eq]
    exact labels
  have perm : (crossed.takenLabels T (crossed.hash 1)).Perm ((List.range 2).map toString) := by
    rw [taken]
    decide
  obtain ⟨st, hst, statement⟩ := exists_mem_of_forall₂ hcomp.statements filter
  have only : crossedCommand.statements = [st] := by rw [List.mem_singleton.mp hst]; rfl
  refine ⟨crossed_compile, s, T, names, hcomp, filter, perm, st, only,
    statement, fun heq => ?_⟩
  rw [hcomp.pads_takenLabels filter statement] at heq
  have order := (hcomp.names_in_order_iff filter perm).mp (by rw [heq, List.map_map]; rfl)
  rw [taken] at order
  exact absurd order (by decide)

end FilterGraph.Graph
