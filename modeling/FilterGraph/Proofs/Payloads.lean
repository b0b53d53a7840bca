import FilterGraph.Graph.Identity
import FilterGraph.Proofs.CanonicalText
import FilterGraph.Proofs.Reach
import FilterGraph.Proofs.Rows

/-!
# What goes into the number of a node

The number of a node is a sum of digests, one of its content and one of each term. This file says
what the texts that are digested tell about the node.

* `Json.SameAs.exists_member`: an object has the members of every object that is the same;
* `sameAs_contentJson`, `eq_of_sameAs_toJson`: contents, and terms, are told from their values;
* `Identity.payloads`: the values whose digests are added up, `node_eq_total`;
* **`same_of_payloads_perm`**: nodes whose values have the same texts, in any order, are the same up
  to the order of options and of terms.
-/

namespace FilterGraph

/-! ## 1. Objects that are the same -/

namespace Json

theorem SameAs.eq_of_string {s : String} {v : Json} (h : SameAs (.string s) v) : v = .string s := by
  cases h
  rfl

theorem SameAs.eq_of_int {i : Int} {v : Json} (h : SameAs (.int i) v) : v = .int i := by
  cases h
  rfl

/-- Objects that are the same are related member by member, the second in some order. -/
theorem SameAs.members {ms ns : List (String × Json)} (h : SameAs (.object ms) (.object ns)) :
    ∃ l, List.Forall₂ (fun m n => m.1 = n.1 ∧ SameAs m.2 n.2) ms l ∧ l.Perm ns := by
  cases h with
  | @object _ as bs _ perm perm' names values =>
    have row : List.Forall₂ (fun m n => m.1 = n.1 ∧ SameAs m.2 n.2) as bs := by
      rw [← List.forall₂_eq_eq_eq] at names
      rw [List.forall₂_map_left_iff, List.forall₂_map_right_iff] at names values
      refine List.forall₂_iff_zip.mpr ⟨names.length_eq, fun h => ?_⟩
      exact ⟨List.forall₂_zip names h, List.forall₂_zip values h⟩
    obtain ⟨l, hl, hperm⟩ := List.perm_comp_forall₂ perm row
    exact ⟨l, hl, hperm.trans perm'.symm⟩

/-- **A member of an object has its counterpart in every object that is the same.** -/
theorem SameAs.exists_member {ms ns : List (String × Json)} (h : SameAs (.object ms) (.object ns))
    (k : String) (v : Json) (hm : (k, v) ∈ ms) : ∃ w, (k, w) ∈ ns ∧ SameAs v w := by
  obtain ⟨l, hl, perm⟩ := h.members
  obtain ⟨⟨k', w⟩, hn, rfl, hw⟩ := exists_mem_of_forall₂ hl hm
  exact ⟨w, perm.mem_iff.mp hn, hw⟩

/-- Rows of texts that are the same are one row. -/
theorem eq_of_sameAs_strings {as bs : List String}
    (h : List.Forall₂ SameAs (as.map .string) (bs.map .string)) : as = bs := by
  rw [List.forall₂_map_left_iff, List.forall₂_map_right_iff] at h
  exact eq_of_forall₂ h fun a _ b hab => (string.inj hab.eq_of_string).symm

/-- Objects of texts that are the same have the same entries. -/
theorem perm_of_sameAs_strings {as bs : List (String × String)}
    (h : SameAs (.object (as.map fun e => (e.1, .string e.2)))
      (.object (bs.map fun e => (e.1, .string e.2)))) : as.Perm bs := by
  obtain ⟨l, hl, perm⟩ := h.members
  have row : as.map (fun e => (e.1, Json.string e.2)) = l := by
    refine eq_of_forall₂ hl ?_
    rintro m hm n ⟨hname, hvalue⟩
    obtain ⟨e, _, rfl⟩ := List.mem_map.mp hm
    exact Prod.ext hname hvalue.eq_of_string.symm
  rw [← row] at perm
  refine (List.map_perm_map_iff ?_).mp perm
  rintro ⟨k, s⟩ ⟨k', s'⟩ heq
  simpa using heq

end Json

/-! ## 2. Contents and terms -/

theorem NodeKind.name_inj {k k' : NodeKind} (h : k.name = k'.name) : k = k' := by
  cases k <;> cases k' <;> simp_all [NodeKind.name]

namespace Identity

open Json (Exact SameAs)

theorem exact_optional (s : Option String) : (optional s).Exact := by
  cases s with
  | none => exact .null
  | some s => exact .string s

theorem exact_encoded (params : Params) : params.encoded.Exact := by
  cases params with
  | options entries =>
    refine .object fun m hm => ?_
    rw [List.mem_singleton.mp hm]
    refine .object fun e he => ?_
    obtain ⟨x, _, rfl⟩ := List.mem_map.mp he
    exact .string x.2
  | literals args =>
    refine .object fun m hm => ?_
    rw [List.mem_singleton.mp hm]
    refine .array fun v hv => ?_
    obtain ⟨x, _, rfl⟩ := List.mem_map.mp hv
    exact .string x

theorem exact_contentJson (kind : NodeKind) (name : String) (params : Params)
    (path : Option String) : (contentJson kind name params path).Exact :=
  .object (by simp [Exact.string, exact_encoded, exact_optional])

theorem exact_toJson (t : Term) : t.toJson.Exact :=
  .object (by simp [Exact.string, Exact.int, exact_optional])

theorem eq_of_sameAs_optional {s t : Option String} (h : SameAs (optional s) (optional t)) :
    s = t := by
  cases s <;> cases t <;> cases h <;> rfl

/-- Parameters are told from their encoding, up to the order of options. -/
theorem sameAs_of_encoded {p q : Params} (h : SameAs p.encoded q.encoded) : p.SameAs q := by
  cases p with
  | options as =>
    cases q with
    | options bs =>
      obtain ⟨w, hw, same⟩ := SameAs.exists_member h "kwargs" _ List.mem_cons_self
      simp only [List.mem_singleton, Prod.mk.injEq, true_and] at hw
      exact Json.perm_of_sameAs_strings (hw ▸ same)
    | literals bs =>
      obtain ⟨w, hw, _⟩ := SameAs.exists_member h "kwargs" _ List.mem_cons_self
      simp at hw
  | literals as =>
    cases q with
    | options bs =>
      obtain ⟨w, hw, _⟩ := SameAs.exists_member h "args" _ List.mem_cons_self
      simp at hw
    | literals bs =>
      obtain ⟨w, hw, same⟩ := SameAs.exists_member h "args" _ List.mem_cons_self
      simp only [List.mem_singleton, Prod.mk.injEq, true_and] at hw
      rw [hw] at same
      cases same with
      | array row => exact Json.eq_of_sameAs_strings row

variable {kind kind' : NodeKind} {name name' : String} {params params' : Params}
  {path path' : Option String} {terms terms' : List Term}

/-- **A content is told from its value**, up to the order of options. -/
theorem sameAs_contentJson
    (h : SameAs (contentJson kind name params path) (contentJson kind' name' params' path')) :
    kind = kind' ∧ name = name' ∧ params.SameAs params' ∧ path = path' := by
  obtain ⟨k, hk, sameKind⟩ := h.exists_member "kind" (.string kind.name) (by simp)
  obtain ⟨n, hn, sameName⟩ := h.exists_member "name" (.string name) (by simp)
  obtain ⟨p, hp, sameParams⟩ := h.exists_member "params" params.encoded (by simp)
  obtain ⟨q, hq, samePath⟩ := h.exists_member "path" (optional path) (by simp)
  simp only [List.mem_cons, Prod.mk.injEq, true_and, String.reduceEq, false_and,
    List.not_mem_nil, or_self, or_false, false_or] at hk hn hp hq
  subst hk hn hp hq
  exact ⟨NodeKind.name_inj (Json.string.inj sameKind.eq_of_string).symm,
    (Json.string.inj sameName.eq_of_string).symm, sameAs_of_encoded sameParams,
    eq_of_sameAs_optional samePath⟩

/-- **A term is told from its value.** -/
theorem eq_of_sameAs_toJson {t t' : Term} (h : SameAs t.toJson t'.toJson) : t = t' := by
  obtain ⟨l, hl, sameLabel⟩ := h.exists_member "downstream_label" (.string t.label) (by simp)
  obtain ⟨u, hu, sameSupplier⟩ := h.exists_member "upstream_hash" (.int t.supplier.toNat) (by simp)
  obtain ⟨m, hm, sameOutput⟩ := h.exists_member "upstream_label" (.string t.supplierLabel) (by simp)
  obtain ⟨c, hc, sameSelector⟩ := h.exists_member "upstream_selector"
    (optional (t.selector.map Selector.letter)) (by simp)
  simp only [List.mem_cons, Prod.mk.injEq, true_and, String.reduceEq, false_and,
    List.not_mem_nil, or_self, or_false, false_or] at hl hu hm hc
  subst hl hu hm hc
  have label : t.label = t'.label := (Json.string.inj sameLabel.eq_of_string).symm
  have supplier : t.supplier = t'.supplier :=
    UInt64.toNat.inj (Int.ofNat.inj (Json.int.inj sameSupplier.eq_of_int)).symm
  have supplierLabel : t.supplierLabel = t'.supplierLabel :=
    (Json.string.inj sameOutput.eq_of_string).symm
  have selector : t.selector = t'.selector :=
    Option.map_injective Selector.letter_injective (eq_of_sameAs_optional sameSelector)
  calc t = ⟨t.label, t.supplier, t.supplierLabel, t.selector⟩ := rfl
    _ = ⟨t'.label, t'.supplier, t'.supplierLabel, t'.selector⟩ := by
      rw [label, supplier, supplierLabel, selector]
    _ = t' := rfl

/-- Terms are told from their texts. -/
theorem canonical_toJson_inj {t t' : Term} : t.toJson.canonical = t'.toJson.canonical ↔ t = t' :=
  ⟨fun h => eq_of_sameAs_toJson
    (Json.sameAs_of_canonical_eq (exact_toJson t) (exact_toJson t') h), fun h => h ▸ rfl⟩

/-- The text of a content is not that of a term. -/
theorem canonical_contentJson_ne (t : Term) :
    (contentJson kind name params path).canonical ≠ t.toJson.canonical := by
  intro h
  have same := Json.sameAs_of_canonical_eq (exact_contentJson _ _ _ _) (exact_toJson t) h
  obtain ⟨k, hk, _⟩ := SameAs.exists_member same "kind" (.string kind.name) (by simp)
  simp at hk

/-! ## 3. The number as a sum -/

/-- The values whose digests the number of a node adds up: its content and its terms. -/
def payloads (kind : NodeKind) (name : String) (params : Params) (path : Option String)
    (terms : List Term) : List Json :=
  contentJson kind name params path :: terms.map Term.toJson

/-- The sum of the digests of texts. -/
def total (digest : String → Digest) (texts : List String) : Digest :=
  (texts.map digest).foldr (· + ·) 0

/-- A sum does not see the order of its terms. -/
theorem total_perm (digest : String → Digest) {as bs : List String} (h : as.Perm bs) :
    total digest as = total digest bs :=
  (h.map digest).foldr_op_eq

/-- **The number of a node is the sum of the digests of its texts.** -/
theorem node_eq_total (digest : String → Digest) (kind : NodeKind) (name : String)
    (params : Params) (path : Option String) (terms : List Term) :
    Identity.node (fun v => digest v.canonical) kind name params path terms =
      total digest ((payloads kind name params path terms).map Json.canonical) := by
  rw [Identity.node, total, payloads, List.map_cons, List.map_cons, List.foldr_cons, List.map_map,
    List.map_map]
  rfl

/-- **Texts tell the node**, up to the order of options and of terms. -/
theorem same_of_payloads_perm
    (h : ((payloads kind name params path terms).map Json.canonical).Perm
      ((payloads kind' name' params' path' terms').map Json.canonical)) :
    kind = kind' ∧ name = name' ∧ params.SameAs params' ∧ path = path' ∧ terms.Perm terms' := by
  rw [payloads, payloads, List.map_cons, List.map_cons, List.map_map, List.map_map] at h
  -- the content is not a term, so it can only be the other content
  have content : (contentJson kind name params path).canonical =
      (contentJson kind' name' params' path').canonical := by
    rcases List.mem_cons.mp (h.mem_iff.mp List.mem_cons_self) with same | mem
    · exact same
    · obtain ⟨t, _, ht⟩ := List.mem_map.mp mem
      exact absurd ht.symm (canonical_contentJson_ne t)
  rw [content] at h
  obtain ⟨sameKind, sameName, sameParams, samePath⟩ := sameAs_contentJson
    (Json.sameAs_of_canonical_eq (exact_contentJson _ _ _ _) (exact_contentJson _ _ _ _) content)
  exact ⟨sameKind, sameName, sameParams, samePath,
    (List.map_perm_map_iff fun _ _ => canonical_toJson_inj.mp).mp h.cons_inv⟩

/-- **Sums can coincide although no two digests do**: a digest that tells all texts apart that go
into two nodes, and yet the nodes, fed by four different nodes, have one number. -/
theorem exists_total_collision : ∃ (digest : String → Digest) (as bs : List Term),
    (∀ s ∈ (payloads .transform "hstack" (.options []) none (as ++ bs)).map Json.canonical,
      ∀ t ∈ (payloads .transform "hstack" (.options []) none (as ++ bs)).map Json.canonical,
        digest s = digest t → s = t) ∧
    Identity.node (fun v => digest v.canonical) .transform "hstack" (.options []) none as =
      Identity.node (fun v => digest v.canonical) .transform "hstack" (.options []) none bs ∧
    ¬ as.Perm bs := by
  let a : Term := ⟨"0", 10, "", none⟩
  let b : Term := ⟨"1", 20, "", none⟩
  let c : Term := ⟨"0", 30, "", none⟩
  let d : Term := ⟨"1", 40, "", none⟩
  let digest (s : String) : Digest :=
    if s = a.toJson.canonical then 1 else if s = b.toJson.canonical then 4
    else if s = c.toJson.canonical then 2 else if s = d.toJson.canonical then 3 else 0
  have content : digest (contentJson .transform "hstack" (.options []) none).canonical = 0 := by
    simp only [digest, canonical_contentJson_ne, if_false]
  have terms : digest a.toJson.canonical = 1 ∧ digest b.toJson.canonical = 4 ∧
      digest c.toJson.canonical = 2 ∧ digest d.toJson.canonical = 3 := by
    simp only [digest, canonical_toJson_inj]
    decide
  refine ⟨digest, [a, b], [c, d], ?_, ?_, by decide⟩
  · simp [payloads, content, terms]
  · simp [Identity.node, Term.number, content, terms]

end Identity

end FilterGraph
