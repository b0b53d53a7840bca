import FilterGraph.Proofs.Construction
import FilterGraph.Proofs.Payloads

/-!
# One text for each value

`Proofs/CanonicalText` gets a value back from its text. Here the other direction: values that are the
same have one text, since members are sorted before they are written.

* `Json.Payload`: the values that are digested, those without floating-point numbers in which no
  object has two members of one name;
* `sortMembers_eq_of_perm`: names that are different have one order only;
* `canonicalChars_eq_of_sameAs`: the order of members does not show in a text, at any depth;
* `Identity.canonical_contentJson_congr`: nor does the order of options in the text of a content;
  `Identity.node_congr`: nor that of options and of edges in a number;
* **`canonical_bytes_tell_values`**: texts, as they are digested, are equal exactly when the values are
  the same.
-/

namespace FilterGraph

namespace Json

/-! ## 1. Members in one order -/

/-- **Members of different names have one order**, in whatever order they are given. -/
theorem sortMembers_eq_of_perm {α : Type} {ms ns : List (String × α)} (h : ms.Perm ns)
    (names : (ms.map (·.1)).Nodup) : sortMembers ms = sortMembers ns := by
  have ordered : ∀ l : List (String × α),
      (sortMembers l).Pairwise fun a b => decide (a.1 ≤ b.1) = true := by
    refine List.pairwise_mergeSort (fun a b c hab hbc => ?_) fun a b => ?_
    · exact decide_eq_true (String.le_trans (of_decide_eq_true hab) (of_decide_eq_true hbc))
    · simpa using String.le_total a.1 b.1
  have perm : (sortMembers ms).Perm (sortMembers ns) :=
    (sortMembers_perm ms).trans (h.trans (sortMembers_perm ns).symm)
  refine List.Perm.eq_of_pairwise (fun a b ha hb hab hba => ?_) (ordered ms) (ordered ns) perm
  have inFirst : b ∈ ms := h.mem_iff.mpr ((sortMembers_perm ns).mem_iff.mp hb)
  exact List.inj_on_of_nodup_map names ((sortMembers_perm ms).mem_iff.mp ha) inFirst
    (String.le_antisymm (of_decide_eq_true hab) (of_decide_eq_true hba))

/-- An object is written alike in whatever order its members are given. -/
theorem canonicalChars_object_congr {ms ns : List (String × Json)}
    (h : (canonicalMembers ms).Perm (canonicalMembers ns)) (names : (ms.map (·.1)).Nodup) :
    canonicalChars (.object ms) = canonicalChars (.object ns) := by
  have rows : (canonicalMembers ms).map (·.1) = ms.map (·.1) := by
    rw [canonicalMembers_eq_map, List.map_map]
    rfl
  rw [canonicalChars, canonicalChars, sortMembers_eq_of_perm h (rows ▸ names)]

/-! ## 2. Values that are the same -/

/-- A value that is digested: it has no floating-point numbers, and no object in it has two members
of one name. -/
inductive Payload : Json → Prop where
  | null : Payload .null
  | bool (b : Bool) : Payload (.bool b)
  | int (i : Int) : Payload (.int i)
  | string (s : String) : Payload (.string s)
  | array {items : List Json} (h : ∀ v ∈ items, Payload v) : Payload (.array items)
  | object {members : List (String × Json)} (names : (members.map (·.1)).Nodup)
      (h : ∀ m ∈ members, Payload m.2) : Payload (.object members)

theorem Payload.exact {v : Json} (h : v.Payload) : v.Exact := by
  induction h with
  | null => exact .null
  | bool b => exact .bool b
  | int i => exact .int i
  | string s => exact .string s
  | array _ ih => exact .array ih
  | object _ _ ih => exact .object ih

/-- **Values that are the same have one text.** The induction is on the first value; what it is
compared with has the same shape. -/
theorem canonicalChars_eq_of_sameAs {v w : Json} (hv : v.Payload) (h : v.SameAs w) :
    v.canonicalChars = w.canonicalChars := by
  induction hv generalizing w with
  | null => cases h; rfl
  | bool b => cases h; rfl
  | int i => cases h; rfl
  | string s => cases h; rfl
  | @array items _ ih =>
    cases h with
    | @array _ ys row =>
      have texts : items.map canonicalChars = ys.map canonicalChars :=
        map_eq_of_forall₂ row fun v hv _ hvw => ih v hv hvw
      rw [canonicalChars, canonicalChars, canonicalItems_eq_map, canonicalItems_eq_map, texts]
  | @object members names _ ih =>
    cases w with
    | object ns =>
      obtain ⟨row, hrow, perm⟩ := h.members
      have texts : canonicalMembers members = canonicalMembers row := by
        rw [canonicalMembers_eq_map, canonicalMembers_eq_map]
        exact map_eq_of_forall₂ hrow fun m hm _ hmn => Prod.ext hmn.1 (ih m hm hmn.2)
      refine canonicalChars_object_congr ?_ names
      rw [texts, canonicalMembers_eq_map, canonicalMembers_eq_map]
      exact perm.map _
    | _ => cases h

/-- Texts are the same when their bytes are. -/
theorem toUTF8_inj {s t : String} : s.toUTF8 = t.toUTF8 ↔ s = t := String.toByteArray_inj

/-- **The text of a value tells the value and nothing else**: neither does the order of members
show, nor is anything else lost. -/
theorem canonical_bytes_eq_iff {v w : Json} (hv : v.Payload) (hw : w.Payload) :
    v.canonical.toUTF8 = w.canonical.toUTF8 ↔ v.SameAs w := by
  rw [toUTF8_inj]
  refine ⟨sameAs_of_canonical_eq hv.exact hw.exact, fun h => ?_⟩
  exact congrArg String.ofList (canonicalChars_eq_of_sameAs hv h)

end Json

/-! ## 3. Contents and terms -/

namespace Identity

open Json (toUTF8_inj)

variable {kind kind' : NodeKind} {name name' : String} {params params' : Params}
  {path path' : Option String}

/-- The order of options does not show in the text of parameters. -/
theorem canonicalChars_encoded_congr (h : params.SameAs params') (names : params.names.Nodup) :
    params.encoded.canonicalChars = params'.encoded.canonicalChars := by
  cases params with
  | options as =>
    cases params' with
    | options bs =>
      have entries : (Json.object (as.map fun e => (e.1, Json.string e.2))).canonicalChars =
          (Json.object (bs.map fun e => (e.1, Json.string e.2))).canonicalChars := by
        refine Json.canonicalChars_object_congr ?_ ?_
        · rw [Json.canonicalMembers_eq_map, Json.canonicalMembers_eq_map]
          exact (List.Perm.map _ h).map _
        · rw [List.map_map]
          exact names
      simp only [Params.encoded, Json.canonicalChars, Json.canonicalMembers] at entries ⊢
      rw [entries]
    | literals bs => exact h.elim
  | literals as =>
    cases params' with
    | options bs => exact h.elim
    | literals bs => exact congrArg (fun l => (Params.literals l).encoded.canonicalChars) h

/-- **The order of options does not show in the text of a content.** -/
theorem canonical_contentJson_congr (h : params.SameAs params') (names : params.names.Nodup) :
    (contentJson kind name params path).canonical =
      (contentJson kind name params' path).canonical := by
  have encoded := canonicalChars_encoded_congr h names
  unfold Json.canonical contentJson
  simp only [Json.canonicalChars, Json.canonicalMembers, encoded]

/-- **The text of a content tells the content**, up to the order of options. -/
theorem canonical_contentJson_eq_iff (names : params.names.Nodup) :
    (contentJson kind name params path).canonical =
        (contentJson kind' name' params' path').canonical ↔
      kind = kind' ∧ name = name' ∧ params.SameAs params' ∧ path = path' := by
  refine ⟨fun h => sameAs_contentJson
    (Json.sameAs_of_canonical_eq (exact_contentJson _ _ _ _) (exact_contentJson _ _ _ _) h), ?_⟩
  rintro ⟨rfl, rfl, same, rfl⟩
  exact canonical_contentJson_congr same names

/-- **The order of options and of terms does not show in a number.** -/
theorem node_congr {digest : String → Digest} {terms terms' : List Term}
    (same : params.SameAs params') (names : params.names.Nodup) (fed : terms.Perm terms') :
    Identity.node (fun v => digest v.canonical) kind name params path terms =
      Identity.node (fun v => digest v.canonical) kind name params' path terms' := by
  rw [node_eq_total, node_eq_total, payloads, payloads, List.map_cons, List.map_cons,
    canonical_contentJson_congr same names]
  exact total_perm digest (((fed.map Term.toJson).map Json.canonical).cons _)

end Identity

/-! ## 4. Texts as they are digested -/

namespace Json

open Identity (Term contentJson)

/-- **Canonical texts tell values up to the order of members**, as the bytes that are digested. So the
text of a content tells the content, and that of an edge term the term; named options are never
written like literal arguments, and a path that is missing never like one that is there. -/
theorem canonical_bytes_tell_values :
    (∀ v w : Json, v.Payload → w.Payload →
      (v.canonical.toUTF8 = w.canonical.toUTF8 ↔ v.SameAs w)) ∧
    (∀ (kind kind' : NodeKind) (name name' : String) (params params' : Params)
      (path path' : Option String), params.names.Nodup →
      ((contentJson kind name params path).canonical.toUTF8 =
          (contentJson kind' name' params' path').canonical.toUTF8 ↔
        kind = kind' ∧ name = name' ∧ params.SameAs params' ∧ path = path')) ∧
    (∀ t t' : Term, t.toJson.canonical.toUTF8 = t'.toJson.canonical.toUTF8 ↔ t = t') ∧
    (∀ (entries : List (String × String)) (args : List String),
      (Params.options entries).encoded.canonical.toUTF8 ≠
        (Params.literals args).encoded.canonical.toUTF8) ∧
    ∀ s, (Identity.optional none).canonical.toUTF8 ≠
      (Identity.optional (some s)).canonical.toUTF8 := by
  refine ⟨fun v w hv hw => canonical_bytes_eq_iff hv hw, fun _ _ _ _ _ _ _ _ names => ?_,
    fun t t' => ?_, fun entries args h => ?_, fun s h => ?_⟩
  · rw [toUTF8_inj]
    exact Identity.canonical_contentJson_eq_iff names
  · rw [toUTF8_inj]
    exact Identity.canonical_toJson_inj
  · have same := sameAs_of_canonical_eq (Identity.exact_encoded _) (Identity.exact_encoded _)
      (toUTF8_inj.mp h)
    exact Identity.sameAs_of_encoded (p := .options entries) (q := .literals args) same
  · have same := sameAs_of_canonical_eq (Identity.exact_optional _) (Identity.exact_optional _)
      (toUTF8_inj.mp h)
    cases Identity.eq_of_sameAs_optional same

/-- An object with a name that needs escapes, a list, and an object in it. -/
def quotedObject : Json :=
  .object [("é\"\n", .array [.int (-12), .null, .bool true]),
    ("a", .object [("y", .int 1), ("x", .string "")])]

/-- The same with its members in another order, outside and inside. -/
def turnedObject : Json :=
  .object [("a", .object [("x", .string ""), ("y", .int 1)]),
    ("é\"\n", .array [.int (-12), .null, .bool true])]

theorem quotedObject_sameAs : quotedObject.SameAs turnedObject := by
  have list : SameAs (.array [.int (-12), .null, .bool true])
      (.array [.int (-12), .null, .bool true]) :=
    .array (.cons (.int _) (.cons .null (.cons (.bool _) .nil)))
  have inner : SameAs (.object [("y", .int 1), ("x", .string "")])
      (.object [("x", .string ""), ("y", .int 1)]) :=
    .of_members (.swap _ _ _) (.refl _) (.cons ⟨rfl, .string _⟩ (.cons ⟨rfl, .int _⟩ .nil))
  exact .of_members (.swap _ _ _) (.refl _) (.cons ⟨rfl, inner⟩ (.cons ⟨rfl, list⟩ .nil))

/-- The two objects have the same bytes. -/
theorem canonical_bytes_tell_values_turned :
    quotedObject.Payload ∧ turnedObject.Payload ∧ quotedObject.SameAs turnedObject ∧
      quotedObject.canonical.toUTF8 = turnedObject.canonical.toUTF8 ∧
      ["w", "h"].Nodup ∧
      (contentJson .transform "scale" (.options [("w", "1"), ("h", "2")]) none).canonical.toUTF8 =
        (contentJson .transform "scale" (.options [("h", "2"), ("w", "1")]) none).canonical.toUTF8 := by
  have quoted : quotedObject.Payload := by
    refine .object (by decide) ?_
    simp [Payload.array, Payload.object, Payload.int, Payload.null, Payload.bool, Payload.string]
  have turned : turnedObject.Payload := by
    refine .object (by decide) ?_
    simp [Payload.array, Payload.object, Payload.int, Payload.null, Payload.bool, Payload.string]
  obtain ⟨values, contents, _⟩ := canonical_bytes_tell_values
  refine ⟨quoted, turned, quotedObject_sameAs, (values _ _ quoted turned).mpr quotedObject_sameAs,
    by decide, (contents .transform .transform "scale" "scale" (.options [("w", "1"), ("h", "2")])
      (.options [("h", "2"), ("w", "1")]) none none (by decide)).mpr ⟨rfl, rfl, ?_, rfl⟩⟩
  exact List.Perm.swap _ _ _

end Json

end FilterGraph
