import FilterGraph.Proofs.Naming
import FilterGraph.Proofs.Rows

/-!
# Names after any requests

A table of names serves three kinds of requests in any order: to place a source, to name an output,
to tell a name. What it holds and what it answers is settled by the requests alone.

* `NameRequest`, `Graph.serve`, `Graph.namesAfter`: a request, what it does to a table and what it
  is answered, and the table after some requests; by `exists_requests` every compilation has such a
  table;
* `WrittenNames`: a table that writes the names down and counts the outputs that it has named. By
  `serveWritten_written` it serves every request alike;
* `Graph.Records`: outputs in the order in which they were first to be named, and the latest
  position of each source; `Records.served` for one request, `records_namesAfter` for all;
* **`names_follow_requests`**: what a table holds and answers after any requests.
-/

namespace FilterGraph

/-! ## 1. Requests -/

/-- What is asked of a table of names. -/
inductive NameRequest where
  | place (source : NodeId) (position : Int)
  | assign (node : NodeId) (label : Label)
  | tell (node : NodeId) (label : Label)
  deriving DecidableEq, Repr

namespace NameRequest

/-- The output that is to be named. -/
def output? (g : Graph) : NameRequest → Option (Digest × Label)
  | assign i l => some (g.hash i, l)
  | _ => none

/-- The position that is given to a source. -/
def position? (g : Graph) (source : Digest) : NameRequest → Option Int
  | place i k => if g.hash i = source then some k else none
  | _ => none

end NameRequest

namespace Graph

/-- The outputs that were to be named, each as often as it was. -/
def outputsAsked (g : Graph) (rs : List NameRequest) : List (Digest × Label) :=
  rs.filterMap (·.output? g)

/-- The positions that a source was given, the latest last. -/
def positionsGiven (g : Graph) (rs : List NameRequest) (source : Digest) : List Int :=
  rs.filterMap (·.position? g source)

/-- Serves a request: the table afterwards, and the answer. Nothing is answered where a source is
placed; a name that is to be told may be missing. -/
def serve (g : Graph) (t : StreamNames) :
    NameRequest → StreamNames × Except Unnamed (Option String)
  | .place i k => (t.place (g.hash i) k, .ok none)
  | .assign i l =>
    let t := t.assign (g.hash i, l)
    (t, .ok (t.assigned? (g.hash i, l)))
  | .tell i l => (t, (g.streamName t i l).map some)

/-- The table after some requests, new before the first. -/
def namesAfter (g : Graph) (rs : List NameRequest) : StreamNames :=
  rs.foldl (fun t r => (g.serve t r).1) .empty

theorem namesAfter_append (g : Graph) (rs rs' : List NameRequest) :
    g.namesAfter (rs ++ rs') = rs'.foldl (fun t r => (g.serve t r).1) (g.namesAfter rs) :=
  List.foldl_append

theorem namesAfter_snoc (g : Graph) (rs : List NameRequest) (r : NameRequest) :
    g.namesAfter (rs ++ [r]) = (g.serve (g.namesAfter rs) r).1 := g.namesAfter_append rs [r]

/-! ## 2. The requests of a compilation -/

theorem nameSources_empty (g : Graph) (ids : List NodeId) :
    g.nameSources ids .empty = g.namesAfter (ids.zipIdx.map fun p => .place p.1 p.2) := by
  rw [nameSources, namesAfter, List.foldl_map]
  rfl

/-- Outputs are named by requests, also when one of them has several consumers. -/
theorem exists_assignNames_eq (g : Graph) (xs : List (NodeId × Label × List Consumer))
    (t : StreamNames) : ∃ rs : List NameRequest,
      (g.assignNames xs t).1 = rs.foldl (fun t r => (g.serve t r).1) t := by
  induction xs generalizing t with
  | nil => exact ⟨[], rfl⟩
  | cons x xs ih =>
    obtain ⟨i, l, cs⟩ := x
    unfold assignNames
    split
    · exact ⟨[], rfl⟩
    · obtain ⟨rs, heq⟩ := ih (t.assign (g.hash i, l))
      exact ⟨.assign i l :: rs, heq⟩

/-- **The table of a compilation comes about by requests**, whatever becomes of the compilation. -/
theorem exists_requests (g : Graph) (s : Sorted) :
    ∃ rs, (g.renderSorted s).1 = g.namesAfter rs := by
  obtain ⟨rs, heq⟩ := g.exists_assignNames_eq (g.consumedOutputs s)
    (g.nameSources (g.sources s) .empty)
  have names : (g.renderSorted s).1 =
      (g.assignNames (g.consumedOutputs s) (g.nameSources (g.sources s) .empty)).1 := by
    unfold renderSorted render
    split <;> rename_i h <;> rw [h]
  rw [nameSources_empty] at names heq
  exact ⟨_, names.trans (heq.trans (g.namesAfter_append _ rs).symm)⟩

end Graph

/-! ## 3. Names written down -/

/-- A table that keeps the names as texts and counts the outputs that it has named. -/
structure WrittenNames where
  sources : List (Digest × String)
  outputs : List ((Digest × Label) × String)
  count : Nat
  deriving DecidableEq, Repr

namespace WrittenNames

/-- Nothing is written down. -/
def empty : WrittenNames := ⟨[], [], 0⟩

/-- Writes down the position of a source. -/
def place (w : WrittenNames) (source : Digest) (position : Int) : WrittenNames :=
  { w with sources := Entries.set source (toString position) w.sources }

/-- The name of an output. Where none is written down it is made from the count. -/
def assign (w : WrittenNames) (output : Digest × Label) : WrittenNames × String :=
  match Entries.find? output w.outputs with
  | some name => (w, name)
  | none =>
    (⟨w.sources, Entries.set output (StreamNames.outputName w.count) w.outputs, w.count + 1⟩,
      StreamNames.outputName w.count)

/-- What is written down for a node as a source, and failing that for its output. -/
def name? (w : WrittenNames) (node : Digest) (label : Label) : Option String :=
  match Entries.find? node w.sources with
  | some name => some name
  | none => Entries.find? (node, label) w.outputs

variable {w : WrittenNames} {o : Digest × Label}

theorem assign_of_find?_eq_some {n : String} (h : Entries.find? o w.outputs = some n) :
    w.assign o = (w, n) := by
  rw [assign, h]

theorem assign_of_find?_eq_none (h : Entries.find? o w.outputs = none) :
    w.assign o = (⟨w.sources, w.outputs ++ [(o, StreamNames.outputName w.count)], w.count + 1⟩,
      StreamNames.outputName w.count) := by
  rw [assign, h, ← Entries.set_of_not_mem (Entries.find?_eq_none_iff.mp h)]

end WrittenNames

namespace StreamNames

variable {t : StreamNames} {o : Digest × Label}

/-- The same table with its names written down. -/
def written (t : StreamNames) : WrittenNames where
  sources := t.sources.map fun e => (e.1, toString e.2)
  outputs := t.outputs.zipIdx.map fun e => (e.1, outputName e.2)
  count := t.outputs.length

theorem assign_of_mem (h : o ∈ t.outputs) : t.assign o = t := if_pos h

theorem assigned?_eq_none_iff : t.assigned? o = none ↔ o ∉ t.outputs := by
  by_cases h : o ∈ t.outputs <;> simp [assigned?, h]

theorem mem_outputs_of_assigned? {n : String} (h : t.assigned? o = some n) : o ∈ t.outputs := by
  by_contra ho
  rw [assigned?_eq_none_iff.mpr ho] at h
  cases h

/-- Every output that was assigned a name has it. -/
theorem exists_assigned?_assign (t : StreamNames) (o : Digest × Label) :
    ∃ n, (t.assign o).assigned? o = some n := ⟨_, if_pos (t.mem_outputs_assign o)⟩

theorem assigned?_assign_of_not_mem (h : o ∉ t.outputs) :
    (t.assign o).assigned? o = some (outputName t.outputs.length) := by
  rw [assigned?, if_pos (t.mem_outputs_assign o), outputs_assign_of_not_mem h,
    List.idxOf_append_of_notMem h, List.idxOf_cons_self, Nat.add_zero]

theorem find?_written_sources (t : StreamNames) (d : Digest) :
    Entries.find? d t.written.sources = (Entries.find? d t.sources).map toString :=
  Entries.find?_map_values toString d t.sources

/-- What is numbered in a row is found under the number of its place. -/
theorem find?_numbered (o : Digest × Label) (os : List (Digest × Label)) (n : Nat) :
    Entries.find? o ((os.zipIdx n).map fun e => (e.1, outputName e.2)) =
      if o ∈ os then some (outputName (n + os.idxOf o)) else none := by
  induction os generalizing n with
  | nil => rfl
  | cons a os ih =>
    rw [List.zipIdx_cons, List.map_cons, Entries.find?, ih]
    by_cases ha : a = o
    · simp [ha]
    · have place : n + 1 + os.idxOf o = n + (a :: os).idxOf o := by
        rw [List.idxOf_cons_ne _ ha]
        omega
      rw [if_neg ha, place]
      simp [Ne.symm ha]

/-- What is written down for an output is the name that it was assigned. -/
theorem find?_written_outputs (t : StreamNames) (o : Digest × Label) :
    Entries.find? o t.written.outputs = t.assigned? o := by
  rw [written, find?_numbered, Nat.zero_add]
  rfl

theorem map_fst_written_outputs (t : StreamNames) : t.written.outputs.map (·.1) = t.outputs := by
  rw [written, List.map_map]
  exact List.zipIdx_map_fst 0 t.outputs

/-- The names that are written down are `s0`, `s1` and so on, as many as were counted. -/
theorem map_snd_written_outputs (t : StreamNames) :
    t.written.outputs.map (·.2) = (List.range t.written.count).map outputName := by
  rw [written, List.map_map, List.range_eq_range', ← List.zipIdx_map_snd, List.map_map]
  rfl

theorem nodup_written_names (t : StreamNames) : (t.written.outputs.map (·.2)).Nodup := by
  rw [map_snd_written_outputs]
  exact List.nodup_range.map fun _ _ => outputName_inj.mp

/-- No output is written down under the name of a source. -/
theorem written_output_ne_source {a : (Digest × Label) × String} {b : Digest × String}
    (ha : a ∈ t.written.outputs) (hb : b ∈ t.written.sources) : a.2 ≠ b.2 := by
  obtain ⟨x, _, rfl⟩ := List.mem_map.mp ha
  obtain ⟨y, _, rfl⟩ := List.mem_map.mp hb
  exact (toString_ne_outputName y.2 x.2).symm

theorem written_place (t : StreamNames) (d : Digest) (k : Int) :
    (t.place d k).written = t.written.place d k := by
  have sources : (t.place d k).written.sources = Entries.set d (toString k) t.written.sources :=
    Entries.map_values_modify (toString : Int → String) d (fun _ => rfl) t.sources
  rw [WrittenNames.place, ← sources]
  rfl

theorem written_assign_of_not_mem (h : o ∉ t.outputs) :
    (t.assign o).written = ⟨t.written.sources,
      t.written.outputs ++ [(o, outputName t.written.count)], t.written.count + 1⟩ := by
  rw [written, sources_assign, outputs_assign_of_not_mem h, List.zipIdx_append, List.map_append,
    List.length_append, Nat.zero_add]
  rfl

/-- **The count makes the name that the place makes.** -/
theorem written_assign {n : String} (h : (t.assign o).assigned? o = some n) :
    t.written.assign o = ((t.assign o).written, n) := by
  by_cases ho : o ∈ t.outputs
  · rw [assign_of_mem ho] at h ⊢
    exact WrittenNames.assign_of_find?_eq_some ((t.find?_written_outputs o).trans h)
  · -- the count is the place that a new output is given
    have new : Entries.find? o t.written.outputs = none :=
      (t.find?_written_outputs o).trans (assigned?_eq_none_iff.mpr ho)
    rw [assigned?_assign_of_not_mem ho, Option.some_inj] at h
    rw [WrittenNames.assign_of_find?_eq_none new, written_assign_of_not_mem ho, ← h]
    rfl

theorem written_name? (t : StreamNames) (d : Digest) (l : Label) :
    t.written.name? d l = t.name? d l := by
  rw [WrittenNames.name?, find?_written_sources, find?_written_outputs, name?]
  cases Entries.find? d t.sources <;> rfl

end StreamNames

namespace Graph

/-- Serves a request from a table that writes the names down. -/
def serveWritten (g : Graph) (w : WrittenNames) :
    NameRequest → WrittenNames × Except Unnamed (Option String)
  | .place i k => (w.place (g.hash i) k, .ok none)
  | .assign i l =>
    let (w, name) := w.assign (g.hash i, l)
    (w, .ok (some name))
  | .tell i l =>
    match w.name? (g.hash i) l with
    | some name => (w, .ok (some name))
    | none => (w, .error ⟨i, l⟩)

/-- The written table after some requests, empty before the first. -/
def writtenAfter (g : Graph) (rs : List NameRequest) : WrittenNames :=
  rs.foldl (fun w r => (g.serveWritten w r).1) .empty

/-- **Both tables serve a request alike.** -/
theorem serveWritten_written (g : Graph) (t : StreamNames) (r : NameRequest) :
    g.serveWritten t.written r = ((g.serve t r).1.written, (g.serve t r).2) := by
  cases r with
  | place i k =>
    rw [serveWritten, ← StreamNames.written_place]
    rfl
  | assign i l =>
    obtain ⟨n, hn⟩ := t.exists_assigned?_assign (g.hash i, l)
    rw [serveWritten, StreamNames.written_assign hn, serve, hn]
  | tell i l =>
    rw [serveWritten, StreamNames.written_name?, serve, streamName]
    cases t.name? (g.hash i) l <;> rfl

/-- **Both tables hold the same after any requests.** -/
theorem writtenAfter_eq (g : Graph) (rs : List NameRequest) :
    g.writtenAfter rs = (g.namesAfter rs).written := by
  induction rs using List.reverseRecOn with
  | nil => rfl
  | append_singleton rs r ih =>
    have last : g.writtenAfter (rs ++ [r]) = (g.serveWritten (g.writtenAfter rs) r).1 :=
      List.foldl_append
    rw [last, ih, serveWritten_written, namesAfter_snoc]

/-! ## 4. What the requests settle -/

variable {g : Graph} {rs : List NameRequest} {t : StreamNames}

theorem outputsAsked_snoc (g : Graph) (rs : List NameRequest) (r : NameRequest) :
    g.outputsAsked (rs ++ [r]) = g.outputsAsked rs ++ (r.output? g).toList := by
  rw [outputsAsked, List.filterMap_append]
  cases h : r.output? g <;> simp [outputsAsked, h]

theorem positionsGiven_snoc (g : Graph) (rs : List NameRequest) (r : NameRequest) (d : Digest) :
    g.positionsGiven (rs ++ [r]) d = g.positionsGiven rs d ++ (r.position? g d).toList := by
  rw [positionsGiven, List.filterMap_append]
  cases h : r.position? g d <;> simp [positionsGiven, h]

/-- The table holds the outputs in the order in which they were first to be named, and the latest
position of each source. -/
structure Records (g : Graph) (rs : List NameRequest) (t : StreamNames) : Prop where
  outputs : t.outputs = (g.outputsAsked rs).eraseDups
  sources : ∀ d, Entries.find? d t.sources = (g.positionsGiven rs d).getLast?

/-- **A request is recorded.** -/
theorem Records.served (h : g.Records rs t) (r : NameRequest) :
    g.Records (rs ++ [r]) (g.serve t r).1 := by
  -- to name an output leaves the positions as they are, to place a source the outputs
  refine ⟨?_, fun d => ?_⟩
  · rw [outputsAsked_snoc]
    cases r with
    | place i k => exact h.outputs.trans (congrArg _ (List.append_nil _).symm)
    | assign i l =>
      show (t.assign (g.hash i, l)).outputs = (g.outputsAsked rs ++ [(g.hash i, l)]).eraseDups
      rw [eraseDups_concat, StreamNames.assign, ← h.outputs]
      by_cases known : (g.hash i, l) ∈ t.outputs
      · rw [if_pos known, if_pos (List.mem_eraseDups.mp (h.outputs ▸ known))]
      · rw [if_neg known, if_neg fun asked => known (h.outputs ▸ List.mem_eraseDups.mpr asked)]
    | tell i l => exact h.outputs.trans (congrArg _ (List.append_nil _).symm)
  · rw [positionsGiven_snoc]
    cases r with
    | place i k =>
      show Entries.find? d (Entries.set (g.hash i) k t.sources) = _
      rw [Entries.find?_set, NameRequest.position?, h.sources]
      by_cases hd : g.hash i = d
      · rw [if_pos hd.symm, if_pos hd, Option.toList_some, List.getLast?_concat]
      · rw [if_neg (Ne.symm hd), if_neg hd, Option.toList_none, List.append_nil]
    | assign i l =>
      show Entries.find? d (t.assign (g.hash i, l)).sources = (g.positionsGiven rs d ++ []).getLast?
      rw [StreamNames.sources_assign, List.append_nil, h.sources]
    | tell i l => exact (h.sources d).trans (congrArg _ (List.append_nil _).symm)

theorem records_namesAfter (g : Graph) (rs : List NameRequest) :
    g.Records rs (g.namesAfter rs) := by
  induction rs using List.reverseRecOn with
  | nil => exact ⟨rfl, fun _ => rfl⟩
  | append_singleton rs r ih =>
    rw [namesAfter_snoc]
    exact ih.served r

theorem Records.mem_outputs_iff (h : g.Records rs t) {o : Digest × Label} :
    o ∈ t.outputs ↔ o ∈ g.outputsAsked rs := by
  rw [h.outputs, List.mem_eraseDups]

/-! ## 5. Answers -/

theorem assigned?_serve {o : Digest × Label} {n : String} (h : t.assigned? o = some n)
    (r : NameRequest) : (g.serve t r).1.assigned? o = some n := by
  cases r with
  | place i k => exact h
  | assign i l => exact StreamNames.assigned?_assign h
  | tell i l => exact h

/-- **An output keeps its name whatever is asked later.** -/
theorem assigned?_namesAfter_append {o : Digest × Label} {n : String}
    (h : (g.namesAfter rs).assigned? o = some n) (rs' : List NameRequest) :
    (g.namesAfter (rs ++ rs')).assigned? o = some n := by
  induction rs' using List.reverseRecOn with
  | nil => rwa [List.append_nil]
  | append_singleton rs' r ih =>
    rw [← List.append_assoc, namesAfter_snoc]
    exact assigned?_serve ih r

theorem serve_assign {i : NodeId} {l : Label} {n : String}
    (h : (t.assign (g.hash i, l)).assigned? (g.hash i, l) = some n) :
    g.serve t (.assign i l) = (t.assign (g.hash i, l), .ok (some n)) := by
  rw [serve, h]

/-- An output that has a name is answered with it, and nothing changes. -/
theorem serve_assign_of_assigned? {i : NodeId} {l : Label} {n : String}
    (h : t.assigned? (g.hash i, l) = some n) : g.serve t (.assign i l) = (t, .ok (some n)) := by
  have same := StreamNames.assign_of_mem (StreamNames.mem_outputs_of_assigned? h)
  have answer : (t.assign (g.hash i, l)).assigned? (g.hash i, l) = some n := by rw [same, h]
  rw [serve_assign answer, same]

/-- **An output that was to be named before is answered as it was then**, and nothing changes. -/
theorem serve_assign_again {i j : NodeId} {l : Label} {pre post : List NameRequest}
    (hash : g.hash j = g.hash i) :
    g.serve (g.namesAfter (pre ++ .assign j l :: post)) (.assign i l) =
      (g.namesAfter (pre ++ .assign j l :: post),
        (g.serve (g.namesAfter pre) (.assign j l)).2) := by
  obtain ⟨n, first⟩ := (g.namesAfter pre).exists_assigned?_assign (g.hash j, l)
  have answer := serve_assign first
  have since : (g.namesAfter (pre ++ [.assign j l])).assigned? (g.hash j, l) = some n := by
    rw [namesAfter_snoc, answer]
    exact first
  have kept := assigned?_namesAfter_append since post
  rw [List.append_assoc, List.singleton_append, hash] at kept
  rw [serve_assign_of_assigned? kept, answer]

/-- **An output that is to be named is answered with the name that it has from then on.** -/
theorem exists_serve_assign (g : Graph) (t : StreamNames) (i : NodeId) (l : Label) :
    ∃ n, (g.serve t (.assign i l)).2 = .ok (some n) ∧
      ((g.hash i, l), n) ∈ (g.serve t (.assign i l)).1.written.outputs := by
  obtain ⟨n, hn⟩ := t.exists_assigned?_assign (g.hash i, l)
  rw [serve_assign hn]
  exact ⟨n, rfl, Entries.mem_of_find? ((StreamNames.find?_written_outputs _ _).trans hn)⟩

/-- **What is told is the latest position of a source, failing that the name of an output.** -/
theorem Records.serve_tell (h : g.Records rs t) (i : NodeId) (l : Label) :
    g.serve t (.tell i l) = (t,
      match (g.positionsGiven rs (g.hash i)).getLast?,
        Entries.find? (g.hash i, l) t.written.outputs with
      | some k, _ => .ok (some (toString k))
      | none, some n => .ok (some n)
      | none, none => .error ⟨i, l⟩) := by
  rw [serve, streamName, StreamNames.name?, h.sources, StreamNames.find?_written_outputs]
  cases (g.positionsGiven rs (g.hash i)).getLast? with
  | some k => rfl
  | none => cases t.assigned? (g.hash i, l) <;> rfl

/-- **A name is missing where no source was placed and no output named.** -/
theorem Records.serve_tell_error_iff (h : g.Records rs t) (i : NodeId) (l : Label) :
    (∃ u, (g.serve t (.tell i l)).2 = .error u) ↔
      g.positionsGiven rs (g.hash i) = [] ∧ (g.hash i, l) ∉ g.outputsAsked rs := by
  rw [h.serve_tell, StreamNames.find?_written_outputs, ← h.mem_outputs_iff,
    ← StreamNames.assigned?_eq_none_iff, ← List.getLast?_eq_none_iff]
  cases (g.positionsGiven rs (g.hash i)).getLast? with
  | some k => simp
  | none => cases t.assigned? (g.hash i, l) <;> simp

/-- **Names follow requests.** A table that writes names down and counts holds the same as the table
of places and serves every request alike. Its outputs are those that were to be named, each once and
in the order in which this was first asked, with the names `s0`, `s1` and so on up to the count;
these are all different, and none is the name of a source. An output that is to be named is answered
with the name that it has from then on, and one that was to be named before is answered as it was
then, with no change. To tell a name changes nothing: it is the latest position that the node was
given as a source, failing that the name of its output, and missing exactly when there is neither. -/
theorem names_follow_requests (g : Graph) (rs : List NameRequest) :
    let t := g.namesAfter rs
    let w := g.writtenAfter rs
    (w = t.written ∧ ∀ r, g.serveWritten w r = ((g.serve t r).1.written, (g.serve t r).2)) ∧
    (w.outputs.map (·.1) = (g.outputsAsked rs).eraseDups ∧ (w.outputs.map (·.1)).Nodup ∧
      w.outputs.map (·.2) = (List.range w.count).map StreamNames.outputName ∧
      (w.outputs.map (·.2)).Nodup ∧ ∀ o ∈ w.outputs, ∀ s ∈ w.sources, o.2 ≠ s.2) ∧
    (∀ i l, (∃ n, (g.serve t (.assign i l)).2 = .ok (some n) ∧
        ((g.hash i, l), n) ∈ (g.serve t (.assign i l)).1.written.outputs) ∧
      ∀ pre j post, rs = pre ++ .assign j l :: post → g.hash j = g.hash i →
        g.serve t (.assign i l) = (t, (g.serve (g.namesAfter pre) (.assign j l)).2)) ∧
    ∀ i l, g.serve t (.tell i l) = (t,
        match (g.positionsGiven rs (g.hash i)).getLast?, Entries.find? (g.hash i, l) w.outputs with
        | some k, _ => .ok (some (toString k))
        | none, some n => .ok (some n)
        | none, none => .error ⟨i, l⟩) ∧
      ((∃ u, (g.serve t (.tell i l)).2 = .error u) ↔
        g.positionsGiven rs (g.hash i) = [] ∧ (g.hash i, l) ∉ g.outputsAsked rs) := by
  intro t w
  have h : g.Records rs t := g.records_namesAfter rs
  have same : w = t.written := g.writtenAfter_eq rs
  have keys : t.written.outputs.map (·.1) = (g.outputsAsked rs).eraseDups :=
    t.map_fst_written_outputs.trans h.outputs
  rw [same]
  refine ⟨⟨rfl, g.serveWritten_written t⟩, ⟨keys, ?_, t.map_snd_written_outputs,
    t.nodup_written_names, fun o ho s hs => StreamNames.written_output_ne_source ho hs⟩,
    fun i l => ⟨?_, ?_⟩, fun i l => ⟨h.serve_tell i l, h.serve_tell_error_iff i l⟩⟩
  · rw [keys]
    exact nodup_eraseDups _
  · exact g.exists_serve_assign t i l
  · rintro pre j post rfl hash
    exact serve_assign_again hash

/-- The twin sources of the sample are placed one after the other. In between the output of the
first is named, which comes after one output of the split and before another. -/
def sampleRequests : List NameRequest :=
  [.assign 2 "1", .place 0 4, .assign 0 "", .place 1 3, .tell 2 "", .assign 2 "0"]

/-- The second of the twins is answered with the name of the first, and for the first the position
of the second is told. -/
theorem names_follow_requests_twins :
    sampleRequests = [.assign 2 "1", .place 0 4] ++ .assign 0 "" ::
      [.place 1 3, .tell 2 "", .assign 2 "0"] ∧ sample.hash 0 = sample.hash 1 ∧
    sample.serve (sample.namesAfter sampleRequests) (.assign 1 "") =
      (sample.namesAfter sampleRequests, .ok (some "s1")) ∧
    sample.serve (sample.namesAfter sampleRequests) (.tell 0 "1") =
      (sample.namesAfter sampleRequests, .ok (some "3")) := by
  obtain ⟨_, _, named, told⟩ := names_follow_requests sample sampleRequests
  have twins : sample.hash 0 = sample.hash 1 := by
    rw [sample_eq]
    rfl
  have latest : (sample.positionsGiven sampleRequests (sample.hash 0)).getLast? = some 3 := by
    rw [sample_eq]
    rfl
  have assigned := (named 1 "").2 [.assign 2 "1", .place 0 4] 0 _ rfl twins
  have told := (told 0 "1").1
  rw [latest] at told
  refine ⟨rfl, twins, ?_, told⟩
  rw [assigned, sample_eq]
  cbv

end Graph

end FilterGraph
