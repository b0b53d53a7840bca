import FilterGraph.Proofs.DocumentShape
import FilterGraph.Proofs.ValidDocument
import Mathlib.Data.List.Chain
import Mathlib.Data.List.Nodup
import Mathlib.Data.List.Perm.Subperm
import Mathlib.Logic.Relation

/-!
# Cycles among the filters of a document

The walk over the filters stops where it meets a filter that is on its path, and names the part of
the path from there on. It is enough to know which visits can come about at all: every one of them
stands at the end of a path of different filters, each of which refers to the next.

* `Filters.Refers`, `Filters.SimpleLoop`: one filter refers to another; a row of filters that leads
  back to its first and passes no filter twice;
* `Filters.Nested`: the visits that a visit of some filter of the document can bring about, with
  their paths; `Nested.length_le`: they are nested no deeper than there are filters;
* `visit_error`, `visitAll_error`: a visit that stops names a simple loop;
* `SimpleLoop.transGen`: every filter of a loop leads back to itself;
* **`cycle_check_is_exact`**: the walk stops exactly when some filter leads back to itself.
-/

namespace FilterGraph

namespace Filters

variable {fs : Filters} {path done loop : List String} {id x y : String}

/-! ## 1. References and loops -/

/-- Filter `x` lists an address of filter `y`. -/
def Refers (fs : Filters) (x y : String) : Prop :=
  ∃ f, Entries.find? x fs = some f ∧ (∃ r ∈ f.inputs, r.node = y) ∧ (Entries.find? y fs).isSome

/-- A row of filters that each refer to the next, the first repeated at the end and no other
repeated. -/
structure SimpleLoop (fs : Filters) (loop : List String) : Prop where
  closed : ∃ x mid, loop = x :: mid ++ [x] ∧ (x :: mid).Nodup
  refers : loop.IsChain fs.Refers

/-- **Every filter of a loop leads back to itself.** -/
theorem SimpleLoop.transGen (h : fs.SimpleLoop loop) (hid : id ∈ loop) :
    Relation.TransGen fs.Refers id id := by
  obtain ⟨x, mid, rfl, _⟩ := h.closed
  have reach := (List.isChain_iff_pairwise.mp (h.refers.imp fun _ _ => Relation.TransGen.single))
  rw [List.cons_append, List.pairwise_cons, List.pairwise_append] at reach
  obtain ⟨first, _, _, last⟩ := reach
  rcases List.mem_append.mp hid with hid | hid
  · rcases List.mem_cons.mp hid with rfl | hid
    · exact first id (List.mem_append_right _ (List.mem_singleton_self id))
    · exact (last id hid x (List.mem_singleton_self x)).trans
        (first id (List.mem_append_left _ hid))
  · rw [List.mem_singleton.mp hid]
    exact first x (List.mem_append_right _ (List.mem_singleton_self x))

/-! ## 2. Visits -/

/-- The visits that a visit of some filter of the document can bring about: a filter off the path is
entered, and what it refers to is visited from the longer path. -/
inductive Nested (fs : Filters) : List String → String → Prop where
  | start {id : String} (h : id ∈ fs.map (·.1)) : Nested fs [] id
  | inner {path : List String} {x y : String} (h : Nested fs path x) (off : x ∉ path)
      (refers : fs.Refers x y) : Nested fs (path ++ [x]) y

theorem Refers.mem_right (h : fs.Refers x y) : y ∈ fs.map (·.1) := by
  obtain ⟨_, _, _, there⟩ := h
  obtain ⟨f, hf⟩ := Option.isSome_iff_exists.mp there
  exact List.mem_map_of_mem (f := (·.1)) (Entries.mem_of_find? hf)

/-- What is visited is a filter, and so is all on the path. -/
theorem Nested.mem (h : fs.Nested path id) : ∀ x ∈ path ++ [id], x ∈ fs.map (·.1) := by
  induction h with
  | start h => exact fun x hx => List.mem_singleton.mp hx ▸ h
  | inner _ _ refers ih =>
    intro x hx
    rcases List.mem_append.mp hx with hx | hx
    · exact ih x hx
    · exact List.mem_singleton.mp hx ▸ refers.mem_right

/-- The filters on a path are different. -/
theorem Nested.nodup (h : fs.Nested path id) : path.Nodup := by
  induction h with
  | start _ => exact List.nodup_nil
  | inner _ off _ ih => exact List.nodup_append.mpr ⟨ih, List.nodup_singleton _, by
      rintro a ha b hb rfl
      exact off (List.mem_singleton.mp hb ▸ ha)⟩

/-- Each filter on a path refers to the next, and the last to what is visited. -/
theorem Nested.chain (h : fs.Nested path id) : (path ++ [id]).IsChain fs.Refers := by
  induction h with
  | start _ => exact List.isChain_singleton _
  | inner _ _ refers ih =>
    rw [List.append_assoc, List.singleton_append]
    exact List.isChain_append_cons_cons.mpr ⟨ih, refers, List.isChain_singleton _⟩

/-- **Visits are nested no deeper than there are filters.** -/
theorem Nested.length_le (h : fs.Nested path id) : path.length ≤ fs.length := by
  have inside : path ⊆ fs.map (·.1) := fun x hx => h.mem x (List.mem_append_left _ hx)
  have le := (List.subperm_of_subset h.nodup inside).length_le
  rwa [List.length_map] at le

/-- **The part of a path from a filter on, with the filter repeated at the end, is a simple loop**
if the filter is visited from this path. -/
theorem Nested.simpleLoop (h : fs.Nested path id) (hid : id ∈ path) :
    fs.SimpleLoop (Filters.loop path id) := by
  obtain ⟨pre, post, rfl, hfirst⟩ := List.eq_append_cons_of_mem hid
  have cut : Filters.loop (pre ++ id :: post) id = id :: post ++ [id] := by
    have before : ∀ x ∈ pre, decide (x ≠ id) = true := fun x hx =>
      decide_eq_true fun heq => hfirst (heq ▸ hx)
    rw [Filters.loop, List.dropWhile_append_of_pos before, List.dropWhile_cons_of_neg (by simp)]
  have suffix : id :: post ++ [id] <:+ (pre ++ id :: post) ++ [id] := ⟨pre, by simp⟩
  rw [cut]
  exact ⟨⟨id, post, rfl, (List.nodup_append.mp h.nodup).2.1⟩, h.chain.suffix suffix⟩

/-! ## 3. Visits that stop -/

/-- A visit of what is no filter changes nothing. -/
theorem visit_of_not_filter (off : id ∉ path) (hid : (Entries.find? id fs).isSome = false) :
    visit fs path done id = .ok done := by
  rw [Option.isSome_eq_false_iff, Option.isNone_iff_eq_none] at hid
  rw [visit, dif_neg off]
  split
  · rfl
  · split
    · rfl
    · rename_i hf
      cases hid.symm.trans hf

mutual

/-- **A visit that stops names a simple loop.** The induction follows the walk; the path is carried
along as that of a visit which can come about. -/
theorem visit_error {path done : List String} {id : String} {e : RuleError}
    (h : visit fs path done id = .error e) (hn : fs.Nested path id) :
    ∃ l, e = .cycle l ∧ fs.SimpleLoop l := by
  rw [visit] at h
  split at h
  · rename_i hp
    cases h
    exact ⟨_, rfl, hn.simpleLoop hp⟩
  split at h
  · cases h
  split at h
  · cases h
  · rename_i hp _ f hf
    have all : visitAll fs (path ++ [id]) done f.inputs = .error e := by
      cases hall : visitAll fs (path ++ [id]) done f.inputs with
      | error e' => rw [hall] at h; cases h; rfl
      | ok d => rw [hall] at h; cases h
    exact visitAll_error all (fun x hx => hn.mem x hx) fun r hr there =>
      hn.inner hp ⟨f, hf, ⟨r, hr, rfl⟩, there⟩
termination_by (fs.offPath path, 0)
decreasing_by exact Prod.Lex.left _ _ (offPath_append_lt ‹_› ‹_›)

theorem visitAll_error {path done : List String} {rs : List StreamAddress} {e : RuleError}
    (h : visitAll fs path done rs = .error e) (hpath : ∀ x ∈ path, x ∈ fs.map (·.1))
    (hn : ∀ r ∈ rs, (Entries.find? r.node fs).isSome → fs.Nested path r.node) :
    ∃ l, e = .cycle l ∧ fs.SimpleLoop l := by
  match rs with
  | [] =>
    rw [visitAll] at h
    cases h
  | r :: rs =>
    rw [visitAll] at h
    split at h
    · rename_i e' he
      cases h
      cases there : (Entries.find? r.node fs).isSome with
      | true => exact visit_error he (hn r List.mem_cons_self there)
      | false =>
        -- an address of an input is passed over
        have off : r.node ∉ path := fun hm => by
          obtain ⟨f, hf⟩ := Document.exists_find?_of_mem (hpath _ hm)
          rw [hf] at there
          cases there
        rw [visit_of_not_filter off there] at he
        cases he
    · exact visitAll_error h hpath fun r hr => hn r (List.mem_cons_of_mem _ hr)
termination_by (fs.offPath path, rs.length + 1)

end

/-- A walk that stops names a simple loop. -/
theorem foldlM_error {ids done : List String} {e : RuleError}
    (h : ids.foldlM (fun done id => visit fs [] done id) done = .error e)
    (hids : ∀ id ∈ ids, id ∈ fs.map (·.1)) : ∃ l, e = .cycle l ∧ fs.SimpleLoop l := by
  induction ids generalizing done with
  | nil => cases h
  | cons id ids ih =>
    rw [List.foldlM_cons] at h
    cases hv : visit fs [] done id with
    | error e' =>
      rw [hv] at h
      cases h
      exact visit_error hv (.start (hids id List.mem_cons_self))
    | ok d =>
      rw [hv] at h
      exact ih h fun id hid => hids id (List.mem_cons_of_mem _ hid)

/-- **Filters without an order have a simple loop, which is named.** -/
theorem order_error {e : RuleError} (h : Filters.order fs = .error e) :
    ∃ l, e = .cycle l ∧ fs.SimpleLoop l :=
  foldlM_error h fun _ hid => hid

/-! ## 4. Visits that go through -/

/-- Places in an order fall along references. -/
theorem Refers.idxOf_lt {order : List String} (h : fs.Refers x y)
    (ho : Filters.order fs = .ok order) : order.idxOf y < order.idxOf x := by
  have progress := order_progress ho
  obtain ⟨f, hf, ⟨r, hr, rfl⟩, there⟩ := h
  have listed := List.mem_map_of_mem (f := (·.1)) (Entries.mem_of_find? hf)
  have placed := progress.visited x listed (by rw [hf]; rfl)
  exact progress.ordered.idxOf_lt placed hf hr there

/-- **No filter leads back to itself where the filters have an order.** -/
theorem not_transGen_of_order {order : List String} (ho : Filters.order fs = .ok order) :
    ¬ Relation.TransGen fs.Refers id id := by
  have falls : ∀ x y, Relation.TransGen fs.Refers x y → order.idxOf y < order.idxOf x := by
    intro x y hxy
    induction hxy with
    | single hr => exact hr.idxOf_lt ho
    | tail _ hr ih => exact Nat.lt_trans (hr.idxOf_lt ho) ih
  exact fun hid => Nat.lt_irrefl _ (falls id id hid)

end Filters

/-! ## 5. The check of a document -/

/-- A document whose order fails is refused with the text of the error. -/
theorem Pipeline.ofJson_eq_fail {v : Json} {d : Document} {e : RuleError}
    (shape : Document.check v = .ok d) (h : d.order = .error e) :
    Pipeline.ofJson v = Schema.Check.fail (.invalid e.message) := by
  unfold Pipeline.ofJson
  rw [shape]
  dsimp only
  split
  · rename_i he
    cases h.symm.trans he
    rfl
  · rename_i ho
    cases h.symm.trans ho

namespace Document

variable {d : Document}

/-- Once ids and addresses are in order, what is left is the order of the filters. -/
theorem order_eq (ids : d.checkIds = .ok ()) (addresses : d.checkAddresses = .ok ()) :
    d.order = Filters.order d.filters := by
  unfold Document.order
  rw [ids, addresses]
  rfl

/-- **The check for cycles is exact and truthful.** In a document whose ids and addresses are in
order the visits are nested no deeper than there are filters; the document is refused exactly when
some filter leads back to itself; and then the error names a simple loop, each filter of which lists
an address of the next. So whoever is named leads back to itself, and a filter that several others
share is no reason to refuse the document. -/
theorem cycle_check_is_exact (ids : d.checkIds = .ok ()) (addresses : d.checkAddresses = .ok ()) :
    (∀ path id, Filters.Nested d.filters path id → path.length ≤ d.filters.length) ∧
    ((∃ e, d.order = .error e) ↔ ∃ id, Relation.TransGen (Filters.Refers d.filters) id id) ∧
    ∀ e, d.order = .error e → ∃ loop, e = .cycle loop ∧
      e.message = "Filter references form a cycle: " ++ " -> ".intercalate loop ∧
      (∀ v, Document.check v = .ok d →
        Pipeline.ofJson v = Schema.Check.fail (.invalid e.message)) ∧
      Filters.SimpleLoop d.filters loop ∧
      ∀ id ∈ loop, Relation.TransGen (Filters.Refers d.filters) id id := by
  have order := order_eq ids addresses
  refine ⟨fun _ _ h => h.length_le, ⟨?_, ?_⟩, fun e he => ?_⟩
  · rintro ⟨e, he⟩
    obtain ⟨l, _, simple⟩ := Filters.order_error (order.symm.trans he)
    obtain ⟨x, mid, rfl, _⟩ := simple.closed
    exact ⟨x, simple.transGen List.mem_cons_self⟩
  · rintro ⟨id, hid⟩
    cases h : Filters.order d.filters with
    | error e => exact ⟨e, order.trans h⟩
    | ok l => exact absurd hid (Filters.not_transGen_of_order h)
  · obtain ⟨l, rfl, simple⟩ := Filters.order_error (order.symm.trans he)
    exact ⟨l, rfl, rfl, fun _ shape => Pipeline.ofJson_eq_fail shape he, simple,
      fun _ hid => simple.transGen hid⟩

/-- A document in which two filters share a third, which takes one of them back. -/
def looped : Document where
  inputs := [("in", ⟨"in.mp4", default⟩)]
  filters := [("top", ⟨"hstack", [⟨"right", "", none⟩, ⟨"left", "", none⟩], default⟩),
    ("left", ⟨"hflip", [⟨"base", "0", none⟩], default⟩),
    ("right", ⟨"vflip", [⟨"base", "1", none⟩], default⟩),
    ("base", ⟨"overlay", [⟨"in", "", some .video⟩, ⟨"left", "", none⟩], default⟩)]
  outputs := [⟨"out.mp4", [⟨"top", "", none⟩], default⟩]

theorem looped_order : looped.order = .error (.cycle ["base", "left", "base"]) := by
  rw [order_eq rfl rfl]
  simp [Filters.order, Filters.visit, Filters.visitAll, looped, Entries.find?, Except.map,
    Filters.loop]
  rfl

/-- The walk comes to the shared filter from the top; the filter at the top and the one that only
shares are not named. -/
theorem cycle_check_is_exact_looped :
    looped.checkIds = .ok () ∧ looped.checkAddresses = .ok () ∧
    looped.order = .error (.cycle ["base", "left", "base"]) ∧
    (∃ id, Relation.TransGen (Filters.Refers looped.filters) id id) ∧
    Filters.SimpleLoop looped.filters ["base", "left", "base"] := by
  obtain ⟨_, exact, truthful⟩ := cycle_check_is_exact (d := looped) rfl rfl
  obtain ⟨loop, heq, _, _, simple, _⟩ := truthful _ looped_order
  cases heq
  exact ⟨rfl, rfl, looped_order, exact.mp ⟨_, looped_order⟩, simple⟩

end Document

end FilterGraph
