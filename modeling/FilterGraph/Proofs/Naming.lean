import FilterGraph.Command.Compile
import FilterGraph.Proofs.Numerals
import FilterGraph.Proofs.Outlets

/-!
# What the streams of a command are called

* `outputName_inj`, `sourceName_inj`, `sourceName_ne_outputName`: the names of outputs and of
  sources are texts that cannot be mixed up;
* `StreamNames.outputs_foldl_assign`: outputs that are assigned names one after the other stand in
  the table in that order;
* `Graph.assignNames_eq_none`, `Graph.assignNames_eq_some`: naming goes through exactly when no
  output has several consumers, and otherwise stops at the first that has;
* `Graph.Named`: the table of a command, with `Named.outputs_eq` for its order and
  `Named.name?_source`, `Named.name?_of_not_source` for what is found in it.
-/

namespace FilterGraph

/-! ## 1. Names as texts -/

/-- The name of the source at a position. -/
def StreamNames.sourceName (k : Nat) : String := toString (k : Int)

theorem sourceName_inj {m n : Nat} :
    StreamNames.sourceName m = StreamNames.sourceName n ↔ m = n := repr_inj

theorem outputName_inj {m n : Nat} :
    StreamNames.outputName m = StreamNames.outputName n ↔ m = n := by
  refine ⟨fun h => repr_inj.mp ?_, fun h => h ▸ rfl⟩
  have chars := congrArg String.toList h
  simp only [StreamNames.outputName, String.toList_append, List.append_cancel_left_eq] at chars
  exact String.toList_inj.mp chars

theorem isDigit_of_mem_sourceName {k : Nat} {c : Char}
    (h : c ∈ (StreamNames.sourceName k).toList) : c.isDigit = true := by
  have digits : (StreamNames.sourceName k).toList = (Nat.repr k).toList := rfl
  rw [digits, Nat.toList_repr] at h
  exact Nat.isDigit_of_mem_toDigits (by decide) (by decide) h

theorem toList_outputName (m : Nat) :
    (StreamNames.outputName m).toList = 's' :: (StreamNames.sourceName m).toList := by
  rw [StreamNames.outputName, String.toList_append]
  rfl

/-- A numeral does not begin like the name of an output. -/
theorem toString_ne_outputName (k : Int) (m : Nat) : toString k ≠ StreamNames.outputName m := by
  intro h
  obtain ⟨c, r, heq, first⟩ := Text.toString_head k
  rw [h, toList_outputName, List.cons.injEq] at heq
  rw [← heq.1] at first
  exact absurd first (by decide)

theorem sourceName_ne_outputName (m n : Nat) :
    StreamNames.sourceName m ≠ StreamNames.outputName n := toString_ne_outputName m n

namespace StreamNames

/-! ## 2. Assigning names in a row -/

theorem sources_assign (t : StreamNames) (o : Digest × Label) :
    (t.assign o).sources = t.sources := by
  unfold assign
  split <;> rfl

theorem outputs_assign_of_not_mem {t : StreamNames} {o : Digest × Label} (h : o ∉ t.outputs) :
    (t.assign o).outputs = t.outputs ++ [o] := by
  simp [assign, h]

theorem sources_foldl_assign (os : List (Digest × Label)) (t : StreamNames) :
    (os.foldl assign t).sources = t.sources := by
  induction os generalizing t with
  | nil => rfl
  | cons o os ih => rw [List.foldl_cons, ih, sources_assign]

/-- **Outputs that are all new get their names in the order of the list.** -/
theorem outputs_foldl_assign {os : List (Digest × Label)} {t : StreamNames}
    (h : (t.outputs ++ os).Nodup) : (os.foldl assign t).outputs = t.outputs ++ os := by
  induction os generalizing t with
  | nil => simp
  | cons o os ih =>
    have fresh : o ∉ t.outputs := by
      have := (List.nodup_cons.mp (List.nodup_middle.mp h)).1
      exact fun hm => this (List.mem_append_left _ hm)
    have grown := outputs_assign_of_not_mem fresh
    rw [List.foldl_cons, ih, grown, List.append_assoc, List.singleton_append]
    rw [grown, List.append_assoc, List.singleton_append]
    exact h

end StreamNames

namespace Graph

variable {g : Graph} {ts : List NodeId} {s : Sorted} {T : List Hop} {names names' : StreamNames}

/-! ## 3. Naming the sources -/

theorem outputs_foldl_place (ids : List NodeId) (n : Nat) (t : StreamNames) :
    ((ids.zipIdx n).foldl (fun t p => t.place (g.hash p.1) p.2) t).outputs = t.outputs := by
  induction ids generalizing n t with
  | nil => rfl
  | cons i ids ih => rw [List.zipIdx_cons, List.foldl_cons, ih]; rfl

theorem find?_foldl_place_of_not_mem {ids : List NodeId} {d : Digest} (hd : d ∉ ids.map g.hash)
    (n : Nat) (t : StreamNames) :
    Entries.find? d ((ids.zipIdx n).foldl (fun t p => t.place (g.hash p.1) p.2) t).sources =
      Entries.find? d t.sources := by
  induction ids generalizing n t with
  | nil => rfl
  | cons i ids ih =>
    rw [List.map_cons, List.mem_cons, not_or] at hd
    rw [List.zipIdx_cons, List.foldl_cons, ih hd.2, StreamNames.place, Entries.find?_set,
      if_neg hd.1]

/-- A source is found at the position that it was placed at. -/
theorem find?_foldl_place {ids : List NodeId} (hn : (ids.map g.hash).Nodup) {k : Nat} {i : NodeId}
    (hi : ids[k]? = some i) (n : Nat) (t : StreamNames) :
    Entries.find? (g.hash i)
      ((ids.zipIdx n).foldl (fun t p => t.place (g.hash p.1) p.2) t).sources =
      some ((n + k : Nat) : Int) := by
  induction ids generalizing n t k with
  | nil => cases hi
  | cons j ids ih =>
    rw [List.map_cons, List.nodup_cons] at hn
    rw [List.zipIdx_cons, List.foldl_cons]
    cases k with
    | zero =>
      cases hi
      rw [find?_foldl_place_of_not_mem hn.1, StreamNames.place, Entries.find?_set, if_pos rfl]
      rfl
    | succ k =>
      rw [ih hn.2 (by simpa using hi)]
      congr 2
      omega

/-! ## 4. Naming the outputs -/

/-- The table's key for a consumed output. -/
def outputKey (g : Graph) (x : NodeId × Label × List Consumer) : Digest × Label :=
  (g.hash x.1, x.2.1)

/-- **Naming goes through when no output has several consumers**, and then names all. -/
theorem assignNames_eq_none {xs : List (NodeId × Label × List Consumer)}
    (h : g.assignNames xs names = (names', none)) :
    (∀ x ∈ xs, x.2.2.length ≤ 1) ∧ names' = (xs.map g.outputKey).foldl .assign names := by
  induction xs generalizing names with
  | nil =>
    cases h
    exact ⟨by simp, rfl⟩
  | cons x xs ih =>
    obtain ⟨i, l, cs⟩ := x
    unfold assignNames at h
    split at h
    · cases h
    · rename_i hcs
      obtain ⟨hall, heq⟩ := ih h
      refine ⟨fun y hy => ?_, heq⟩
      rcases List.mem_cons.mp hy with rfl | hy
      · exact Nat.not_lt.mp hcs
      · exact hall y hy

/-- **Naming stops at the first output that has several consumers.** -/
theorem assignNames_eq_some {xs : List (NodeId × Label × List Consumer)} {e : GraphError}
    (h : g.assignNames xs names = (names', some e)) :
    ∃ pre i l cs post, xs = pre ++ (i, l, cs) :: post ∧ (∀ x ∈ pre, x.2.2.length ≤ 1) ∧
      1 < cs.length ∧ e = .multipleConsumers i l cs := by
  induction xs generalizing names with
  | nil => cases h
  | cons x xs ih =>
    obtain ⟨i, l, cs⟩ := x
    unfold assignNames at h
    split at h
    · rename_i hcs
      cases h
      exact ⟨[], i, l, cs, xs, rfl, by simp, hcs, rfl⟩
    · rename_i hcs
      obtain ⟨pre, j, m, ds, post, heq, hpre, hds, he⟩ := ih h
      refine ⟨(i, l, cs) :: pre, j, m, ds, post, by rw [heq]; rfl, fun y hy => ?_, hds, he⟩
      rcases List.mem_cons.mp hy with rfl | hy
      · exact Nat.not_lt.mp hcs
      · exact hpre y hy

theorem mem_ofKind {k : NodeKind} {i : NodeId} :
    i ∈ g.ofKind s k ↔ i ∈ s.nodes ∧ (g.node i).kind = k := by
  simp [ofKind]

theorem mem_consumedOutputs {i : NodeId} {l : Label} {cs : List Consumer} :
    (i, l, cs) ∈ g.consumedOutputs s ↔ i ∈ g.transforms s ∧ (l, cs) ∈ g.outgoing s i := by
  simp only [consumedOutputs, List.mem_flatMap, List.mem_map, Prod.mk.injEq, Prod.exists]
  constructor
  · rintro ⟨j, hj, m, ds, hm, rfl, rfl, rfl⟩
    exact ⟨hj, hm⟩
  · rintro ⟨hi, hm⟩
    exact ⟨i, hi, l, cs, hm, rfl, rfl, rfl⟩

theorem nodup_ofKind_hash (h : g.sort ts = .ok s) (k : NodeKind) :
    ((g.ofKind s k).map g.hash).Nodup :=
  (List.Sublist.map g.hash List.filter_sublist).nodup (sort_nodup h)

/-- No output is named twice. -/
theorem Traversed.nodup_outputKeys (h : g.Traversed ts s T) :
    ((g.consumedOutputs s).map g.outputKey).Nodup := by
  have keys : (g.consumedOutputs s).map g.outputKey =
      (g.transforms s).flatMap fun i => ((g.outgoing s i).map (·.1)).map (g.hash i, ·) := by
    simp [consumedOutputs, List.map_flatMap, outputKey, Function.comp_def]
  rw [keys, List.nodup_flatMap]
  refine ⟨fun i _ => ?_, ?_⟩
  · exact (h.nodup_outgoing_keys i).map fun a b hab => congrArg Prod.snd hab
  · have distinct := nodup_ofKind_hash h.sort .transform
    rw [List.Nodup, List.pairwise_map] at distinct
    refine distinct.imp fun {i j} hij => ?_
    rintro ⟨d, l⟩ hi hj
    simp only [List.mem_map, Prod.mk.injEq] at hi hj
    obtain ⟨_, _, hid, _⟩ := hi
    obtain ⟨_, _, hjd, _⟩ := hj
    exact hij (hid.trans hjd.symm)

/-! ## 5. The table of a command -/

/-- The table that names all streams of a sorted graph. -/
structure Named (g : Graph) (s : Sorted) (names : StreamNames) : Prop where
  assigned : g.assignNames (g.consumedOutputs s) (g.nameSources (g.sources s) .empty) =
    (names, none)

/-- Nothing that was named has several consumers. -/
theorem Named.single (hn : g.Named s names) {i : NodeId} {l : Label} {cs : List Consumer}
    (hi : i ∈ g.transforms s) (hm : (l, cs) ∈ g.outgoing s i) : cs.length ≤ 1 :=
  (assignNames_eq_none hn.assigned).1 (i, l, cs) (mem_consumedOutputs.mpr ⟨hi, hm⟩)

/-- **The outputs of the table are the consumed outputs in order.** -/
theorem Named.outputs_eq (hn : g.Named s names) (h : g.Traversed ts s T) :
    names.outputs = (g.consumedOutputs s).map g.outputKey := by
  have none : (g.nameSources (g.sources s) .empty).outputs = [] := outputs_foldl_place _ _ _
  rw [(assignNames_eq_none hn.assigned).2, StreamNames.outputs_foldl_assign, none, List.nil_append]
  rw [none, List.nil_append]
  exact h.nodup_outputKeys

theorem Named.sources_eq (hn : g.Named s names) :
    names.sources = (g.nameSources (g.sources s) .empty).sources := by
  rw [(assignNames_eq_none hn.assigned).2, StreamNames.sources_foldl_assign]

/-- **A source is named by its position**, whatever the label. -/
theorem Named.name?_source (hn : g.Named s names) (h : g.sort ts = .ok s) {k : Nat} {i : NodeId}
    (hi : (g.sources s)[k]? = some i) (l : Label) :
    names.name? (g.hash i) l = some (StreamNames.sourceName k) := by
  have found : Entries.find? (g.hash i) names.sources = some ((0 + k : Nat) : Int) := by
    rw [hn.sources_eq]
    exact find?_foldl_place (nodup_ofKind_hash h .source) hi 0 .empty
  rw [StreamNames.name?, found, Nat.zero_add]
  rfl

/-- What is no source has the name that was assigned to it. -/
theorem Named.name?_of_not_source (hn : g.Named s names) {d : Digest}
    (hd : d ∉ (g.sources s).map g.hash) (l : Label) : names.name? d l = names.assigned? (d, l) := by
  have none : Entries.find? d names.sources = none := by
    rw [hn.sources_eq]
    exact find?_foldl_place_of_not_mem hd 0 .empty
  rw [StreamNames.name?, none]

end Graph

end FilterGraph
