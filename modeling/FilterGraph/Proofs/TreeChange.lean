import FilterGraph.Proofs.NodeTree

/-!
# A change in a tree

The number of a node is a plain sum, in which other terms could make up for one that changes. A
change at one place cannot be made up for: the sum differs in one term, and so on at each node from
the place to the root.

* `Tree.texts`: the texts that are digested for the number of a tree;
* `Tree.Changed`: trees that differ at one place, in a content, in an edge, or in what an edge comes
  from, and are one on every other branch;
* `Identity.total_replace`: a sum sees the change of one of its texts, if their digests differ;
* `Tree.number_ne_of_term`: the step from the number of a branch to the number of the node;
* **`changed_number_ne`**: the number of the root changes, and so do those of its outputs.
-/

namespace FilterGraph

/-! ## 1. One text of a sum -/

namespace Identity

variable {digest : String → Digest} {bs : List String} {s s' : String}

theorem total_append (digest : String → Digest) (as bs : List String) :
    total digest (as ++ bs) = total digest as + total digest bs := by
  induction as with
  | nil => exact (UInt64.zero_add _).symm
  | cons a as ih =>
    calc total digest (a :: as ++ bs) = digest a + total digest (as ++ bs) := rfl
      _ = digest a + total digest as + total digest bs := by rw [ih, UInt64.add_assoc]

/-- **One text of a sum is told from the sum**, as far as the digest tells it. -/
theorem total_replace (as : List String)
    (h : total digest (as ++ s :: bs) = total digest (as ++ s' :: bs)) : digest s = digest s' := by
  rw [total_append, total_append, UInt64.add_right_inj] at h
  exact (UInt64.add_left_inj (total digest bs)).mp h

end Identity

/-- A term tells what the edge says of itself, and the number of its supplier. -/
theorem Tap.term_inj {tap tap' : Tap} {n n' : Digest} :
    tap.term n = tap'.term n' ↔ tap = tap' ∧ n = n' := by
  refine ⟨fun h => ?_, fun ⟨hTap, hn⟩ => hTap ▸ hn ▸ rfl⟩
  cases tap
  cases tap'
  cases h
  exact ⟨rfl, rfl⟩

namespace Tree

open Identity (contentJson)

variable {digest : String → Digest} {t t' u u' : Tree} {kind kind' : NodeKind} {name name' : String}
  {params params' : GivenParams} {path path' : Option String} {tap tap' : Tap}
  {before after branches : List (Tap × Tree)}

/-! ## 2. Texts and changes -/

mutual

/-- The texts that are digested for the number of a tree: the contents of its nodes and the terms of
its edges. -/
def texts (digest : String → Digest) : Tree → List String
  | .node kind name params path branches =>
    (contentJson kind name params.params path).canonical :: branchTexts digest branches

/-- The texts that are digested for branches, with the terms of the edges that they are on. -/
def branchTexts (digest : String → Digest) : List (Tap × Tree) → List String
  | [] => []
  | (tap, t) :: rest =>
    (tap.term (t.number digest)).toJson.canonical :: (texts digest t ++ branchTexts digest rest)

end

/-- A digest gives different numbers to the different texts of a list. -/
def Tells (digest : String → Digest) (texts : List String) : Prop :=
  ∀ s ∈ texts, ∀ s' ∈ texts, digest s = digest s' → s = s'

/-- Trees that differ at one place and are one on every branch that does not lead there. At the
place, the content of a node differs, up to the order of options, or what an edge says of itself, or
the number of what the edge comes from. -/
inductive Changed (digest : String → Digest) : Tree → Tree → Prop where
  | content {kind kind' : NodeKind} {name name' : String} {params params' : GivenParams}
      {path path' : Option String} {branches : List (Tap × Tree)}
      (differ : ¬ (kind = kind' ∧ name = name' ∧ params.params.SameAs params'.params ∧ path = path')) :
      Changed digest (.node kind name params path branches) (.node kind' name' params' path' branches)
  | edge {kind : NodeKind} {name : String} {params : GivenParams} {path : Option String}
      {before after : List (Tap × Tree)} {tap tap' : Tap} {u : Tree} (differ : tap ≠ tap') :
      Changed digest (.node kind name params path (before ++ (tap, u) :: after))
        (.node kind name params path (before ++ (tap', u) :: after))
  | supplier {kind : NodeKind} {name : String} {params : GivenParams} {path : Option String}
      {before after : List (Tap × Tree)} {tap : Tap} {u u' : Tree}
      (differ : u.number digest ≠ u'.number digest) :
      Changed digest (.node kind name params path (before ++ (tap, u) :: after))
        (.node kind name params path (before ++ (tap, u') :: after))
  | above {kind : NodeKind} {name : String} {params : GivenParams} {path : Option String}
      {before after : List (Tap × Tree)} {tap : Tap} {u u' : Tree} (h : Changed digest u u') :
      Changed digest (.node kind name params path (before ++ (tap, u) :: after))
        (.node kind name params path (before ++ (tap, u') :: after))

theorem Tells.subset {l m : List String} (h : Tells digest m) (sub : l ⊆ m) : Tells digest l :=
  fun s hs s' hs' => h s (sub hs) s' (sub hs')

/-- The texts of a branch, and that of its edge, are texts of the node. -/
theorem texts_branch_subset :
    (tap.term (u.number digest)).toJson.canonical :: texts digest u ⊆
      texts digest (.node kind name params path (before ++ (tap, u) :: after)) := by
  have inside : (tap.term (u.number digest)).toJson.canonical :: texts digest u ⊆
      branchTexts digest (before ++ (tap, u) :: after) := by
    induction before with
    | nil =>
      rw [List.nil_append, branchTexts, ← List.cons_append]
      exact List.subset_append_left _ _
    | cons b before ih =>
      rw [List.cons_append, branchTexts]
      exact List.subset_cons_of_subset _ (List.subset_append_of_subset_right _ ih)
  rw [texts]
  exact List.subset_cons_of_subset _ inside

/-! ## 3. From the place to the root -/

/-- The texts that the number of the root adds up. -/
theorem number_eq_total (digest : String → Digest) :
    number digest (.node kind name params path branches) =
      Identity.total digest ((contentJson kind name params.params path).canonical ::
        branches.map fun b => (b.1.term (b.2.number digest)).toJson.canonical) := by
  rw [number, Identity.node_eq_total, terms_eq_map, Identity.payloads, List.map_cons, List.map_map,
    List.map_map]
  rfl

/-- **A change of the content changes the number.** -/
theorem number_ne_of_content
    (tells : Tells digest (texts digest (.node kind name params path branches) ++
      texts digest (.node kind' name' params' path' branches)))
    (differ : ¬ (kind = kind' ∧ name = name' ∧ params.params.SameAs params'.params ∧ path = path')) :
    number digest (.node kind name params path branches) ≠
      number digest (.node kind' name' params' path' branches) := by
  intro same
  rw [number_eq_total, number_eq_total] at same
  have first : (contentJson kind name params.params path).canonical ∈
      texts digest (.node kind name params path branches) := by
    rw [texts]
    exact List.mem_cons_self
  have second : (contentJson kind' name' params'.params path').canonical ∈
      texts digest (.node kind' name' params' path' branches) := by
    rw [texts]
    exact List.mem_cons_self
  have text := tells _ (List.mem_append_left _ first) _ (List.mem_append_right _ second)
    (Identity.total_replace [] same)
  exact differ ((Identity.canonical_contentJson_eq_iff params.names).mp text)

/-- **A change of one term changes the number.** -/
theorem number_ne_of_term
    (tells : Tells digest (texts digest (.node kind name params path (before ++ (tap, u) :: after)) ++
      texts digest (.node kind name params path (before ++ (tap', u') :: after))))
    (differ : tap.term (u.number digest) ≠ tap'.term (u'.number digest)) :
    number digest (.node kind name params path (before ++ (tap, u) :: after)) ≠
      number digest (.node kind name params path (before ++ (tap', u') :: after)) := by
  intro same
  rw [number_eq_total, number_eq_total, List.map_append, List.map_append, List.map_cons,
    List.map_cons, ← List.cons_append, ← List.cons_append] at same
  have text := tells _ (List.mem_append_left _ (texts_branch_subset List.mem_cons_self)) _
    (List.mem_append_right _ (texts_branch_subset List.mem_cons_self))
    (Identity.total_replace _ same)
  exact differ (Identity.canonical_toJson_inj.mp text)

/-- **The number of the root changes.** The induction is on the way from the root to the place. -/
theorem Changed.number_ne (h : Changed digest t t')
    (tells : Tells digest (texts digest t ++ texts digest t')) :
    t.number digest ≠ t'.number digest := by
  induction h with
  | content differ => exact number_ne_of_content tells differ
  | edge differ => exact number_ne_of_term tells fun same => differ (Tap.term_inj.mp same).1
  | supplier differ => exact number_ne_of_term tells fun same => differ (Tap.term_inj.mp same).2
  | above _ ih =>
    refine number_ne_of_term tells fun same => ih (tells.subset ?_) (Tap.term_inj.mp same).2
    refine List.append_subset.mpr ⟨List.subset_append_of_subset_left _ ?_,
      List.subset_append_of_subset_right _ ?_⟩
    · exact (List.cons_subset.mp texts_branch_subset).2
    · exact (List.cons_subset.mp texts_branch_subset).2

/-! ## 4. What is seen at the root -/

/-- **A change at one place of a tree changes the number of the root**, and the numbers of its
outputs, for a digest that tells the texts that occur. So do the numbers of nodes with these trees,
in whatever graphs, and of the streams of one label that are taken from them. -/
theorem changed_number_ne (h : Changed digest t t')
    (tells : Tells digest (texts digest t ++ texts digest t')) :
    t.number digest ≠ t'.number digest ∧
      (∀ label, t.outputNumber digest label ≠ t'.outputNumber digest label) ∧
      (digest = Digest.ofText → ∀ (g g' : Graph) (s s' : Stream),
        g.Represents s.node t → g'.Represents s'.node t' →
        g.hash s.node ≠ g'.hash s'.node ∧
          (s.label = s'.label → g.streamHash s ≠ g'.streamHash s')) := by
  have number := h.number_ne tells
  refine ⟨number, fun label same => number ?_, fun hd g g' s s' hs hs' => ?_⟩
  · exact (UInt64.add_left_inj _).mp same
  · subst hd
    rw [← hs.hash_eq, ← hs'.hash_eq] at number
    refine ⟨number, fun label same => number ?_⟩
    rw [Graph.streamHash, Graph.streamHash, label] at same
    exact (UInt64.add_left_inj _).mp same

/-- A sink fed by a source. -/
def copied (path : String) : Tree :=
  .node .sink "output" plain (some "out.mp4")
    [(⟨"", "", none⟩, .node .source "input" plain (some path) [])]

/-- Its nodes, in a graph. -/
def copiedGraph (path : String) : Graph :=
  let (g, a) := Graph.empty.source (some path) plain.params
  (g.output (.one a) (some "out.mp4") plain.params).1

theorem copiedGraph_represents (path : String) : (copiedGraph path).Represents 1 (copied path) := by
  refine ⟨?_, Nat.lt_add_one _, ?_⟩
  · have fed : (Graph.empty.source (some path) plain.params).1.Built :=
      .source .empty plain.names (some path)
    refine fed.output plain.names ?_ (some "out.mp4")
    intro s hs
    rw [List.mem_singleton.mp hs]
    exact Nat.lt_add_one _
  · exact .node rfl rfl (.cons (.node rfl rfl .nil) .nil)

/-- The text of the content of a source without options. -/
def sourceText (path : String) : String :=
  (contentJson .source "input" (.options []) (some path)).canonical

/-- The text of the content of the sink. -/
def sinkText : String := (contentJson .sink "output" (.options []) (some "out.mp4")).canonical

/-- The text of the edge from a source of a number. -/
def edgeText (source : Digest) : String := (Tap.term ⟨"", "", none⟩ source).toJson.canonical

theorem texts_copied (path : String) (source : Digest)
    (h : Digest.ofText (sourceText path) = source) :
    texts Digest.ofText (copied path) = [sinkText, edgeText source, sourceText path] := by
  have number : number Digest.ofText (.node .source "input" plain (some path) []) = source := by
    rw [number_eq_total]
    exact (UInt64.add_zero _).trans h
  rw [copied, texts, branchTexts, branchTexts, texts, branchTexts, number]
  rfl

theorem ofText_source_in : Digest.ofText (sourceText "in.mp4") = 0x04a838841dc2246b := by
  unfold sourceText
  conv => lhs; arg 1; cbv
  decide +kernel

theorem ofText_source_other : Digest.ofText (sourceText "other.mp4") = 15803621320514055315 := by
  unfold sourceText
  conv => lhs; arg 1; cbv
  decide +kernel

theorem ofText_sink : Digest.ofText sinkText = 10682464285644143294 := by
  unfold sinkText
  conv => lhs; arg 1; cbv
  decide +kernel

theorem ofText_edge_in : Digest.ofText (edgeText 0x04a838841dc2246b) = 11763498825095869594 := by
  unfold edgeText
  conv => lhs; arg 1; cbv
  decide +kernel

theorem ofText_edge_other :
    Digest.ofText (edgeText 15803621320514055315) = 8988300835081981116 := by
  unfold edgeText
  conv => lhs; arg 1; cbv
  decide +kernel

/-- The digests that go into the two graphs are different. -/
theorem copied_tells : Tells Digest.ofText
    (texts Digest.ofText (copied "in.mp4") ++ texts Digest.ofText (copied "other.mp4")) := by
  have different : ([sinkText, edgeText 0x04a838841dc2246b, sourceText "in.mp4",
      edgeText 15803621320514055315, sourceText "other.mp4"].map Digest.ofText).Nodup := by
    simp only [List.map_cons, List.map_nil, ofText_sink, ofText_edge_in, ofText_source_in,
      ofText_edge_other, ofText_source_other]
    decide
  rw [texts_copied _ _ ofText_source_in, texts_copied _ _ ofText_source_other]
  have told : Tells Digest.ofText _ := List.inj_on_of_nodup_map different
  exact told.subset (by simp)

/-- The sink is another when the source reads another file. -/
theorem changed_number_ne_copied : (copied "in.mp4").Changed Digest.ofText (copied "other.mp4") ∧
    Tells Digest.ofText
      (texts Digest.ofText (copied "in.mp4") ++ texts Digest.ofText (copied "other.mp4")) ∧
    (copiedGraph "in.mp4").Represents 1 (copied "in.mp4") ∧
    (copiedGraph "other.mp4").Represents 1 (copied "other.mp4") ∧
    (copiedGraph "in.mp4").hash 1 ≠ (copiedGraph "other.mp4").hash 1 ∧
    (copiedGraph "in.mp4").streamHash ⟨.output, 1, "", none⟩ ≠
      (copiedGraph "other.mp4").streamHash ⟨.output, 1, "", none⟩ := by
  have source : (Tree.node .source "input" plain (some "in.mp4") []).Changed Digest.ofText
      (.node .source "input" plain (some "other.mp4") []) := .content (by simp)
  have changed : (copied "in.mp4").Changed Digest.ofText (copied "other.mp4") :=
    @Changed.above _ .sink "output" plain (some "out.mp4") [] [] ⟨"", "", none⟩ _ _ source
  obtain ⟨_, _, nodes⟩ := changed_number_ne changed copied_tells
  obtain ⟨hash, streams⟩ := nodes rfl _ _ ⟨.output, 1, "", none⟩ ⟨.output, 1, "", none⟩
    (copiedGraph_represents _) (copiedGraph_represents _)
  exact ⟨changed, copied_tells, copiedGraph_represents _, copiedGraph_represents _, hash,
    streams rfl⟩

end Tree

end FilterGraph
