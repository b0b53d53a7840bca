import FilterGraph.Document.Rules
import FilterGraph.Proofs.Rows
import Mathlib.Data.List.Induction

/-!
# The shape of a document

What the checks of a document let through, said without the checks, and the way back: a value for
every document of this shape.

* `Entries.nodup_keys_ofPairs`, `Entries.ofPairs_eq_self`: writing pairs one after the other;
* `Check.required_eq_ok_iff`, `Check.shape_of_dictionary`, `Check.shape_of_nonEmptyList` and their like:
  what passes a check of part of a record; `Check.dictionary_encode`, `Check.nonEmptyList_encode`: what
  is written out passes it;
* `Document.Shaped`: names and paths are not empty, something is listed where something has to be, and
  no id occurs twice; **`shaped_of_check`**: what passes the check has this shape;
* `Document.toJson`: the value of a document; **`check_toJson`**: it passes the check again;
* **`Pipeline.exists_ofJson_iff`**: a document is read from some value exactly when it has the shape and
  keeps the rules.
-/

namespace FilterGraph

/-! ## 1. Pairs written one after the other -/

namespace Entries

variable {κ ν : Type} [DecidableEq κ] {es : List (κ × ν)}

theorem nodup_keys_ofPairs (ps : List (κ × ν)) : (keys (ofPairs ps)).Nodup :=
  List.foldlRecOn ps _ (motive := fun es => (keys es).Nodup) List.nodup_nil
    fun _ h p _ => nodup_keys_modify p.1 _ h

theorem mem_of_mem_set {k : κ} {v : ν} {e : κ × ν} (h : e ∈ set k v es) : e = (k, v) ∨ e ∈ es := by
  induction es with
  | nil => exact .inl (List.mem_singleton.mp h)
  | cons x es ih =>
    obtain ⟨a, w⟩ := x
    rw [set, modify] at h
    split at h
    · rename_i ha
      rcases List.mem_cons.mp h with rfl | h
      · exact .inl (by rw [ha])
      · exact .inr (List.mem_cons_of_mem _ h)
    · rcases List.mem_cons.mp h with rfl | h
      · exact .inr List.mem_cons_self
      · exact (ih h).imp_right (List.mem_cons_of_mem _)

/-- Every entry is one of the pairs. -/
theorem mem_of_mem_ofPairs {ps : List (κ × ν)} {e : κ × ν} (h : e ∈ ofPairs ps) : e ∈ ps := by
  have kept : ∀ e ∈ ofPairs ps, e ∈ ps := by
    refine List.foldlRecOn ps _ (motive := fun es => ∀ e ∈ es, e ∈ ps) nofun fun es ih p hp e he => ?_
    rcases mem_of_mem_set he with rfl | he
    · exact hp
    · exact ih e he
  exact kept e h

theorem eq_nil_of_ofPairs {ps : List (κ × ν)} (h : ofPairs ps = []) : ps = [] := by
  rcases List.eq_nil_or_concat ps with rfl | ⟨ps, p, rfl⟩
  · rfl
  · rw [ofPairs, List.concat_eq_append, List.foldl_append, List.foldl_cons, List.foldl_nil, set] at h
    generalize ps.foldl _ [] = es at h
    cases es with
    | nil => cases h
    | cons e es =>
      obtain ⟨a, w⟩ := e
      rw [modify] at h
      split at h <;> cases h

/-- Pairs without a repeated key are the entries. -/
theorem ofPairs_eq_self (h : (keys es).Nodup) : ofPairs es = es := by
  induction es using List.reverseRecOn with
  | nil => rfl
  | append_singleton es e ih =>
    rw [keys, List.map_append, List.nodup_append] at h
    have last : e.1 ∉ keys es := fun hm => h.2.2 _ hm _ (List.mem_singleton_self _) rfl
    have before : es.foldl (fun es p => set p.1 p.2 es) [] = es := ih h.1
    rw [ofPairs, List.foldl_append, before]
    exact set_of_not_mem last

end Entries

/-! ## 2. What passes a check -/

namespace Schema.Check

variable {α β : Type} {c : Json → Checked α} {name : String} {ms : List (String × Json)} {x : α}
  {v : Json}

@[simp] theorem under_eq_ok_iff {s : Step} {a : Checked α} : under s a = .ok x ↔ a = .ok x := by
  cases a <;> simp [under, Except.mapError]

@[simp] theorem pair_eq_ok_iff {a : Checked α} {b : Checked β} {p : α × β} :
    pair a b = .ok p ↔ a = .ok p.1 ∧ b = .ok p.2 := by
  obtain ⟨y, z⟩ := p
  cases a <;> cases b <;> simp [pair]

theorem nonEmptyString_eq_ok_iff {s : String} :
    nonEmptyString v = .ok s ↔ v = .string s ∧ s ≠ "" := by
  cases v with
  | string t =>
    by_cases h : t = ""
    · rw [h]
      refine ⟨nofun, fun ⟨heq, hne⟩ => ?_⟩
      exact absurd (Json.string.inj heq).symm hne
    · rw [nonEmptyString, if_neg (by simpa using h)]
      refine ⟨fun heq => ?_, fun ⟨heq, _⟩ => congrArg Except.ok (Json.string.inj heq)⟩
      cases heq
      exact ⟨rfl, h⟩
  | _ => simp [nonEmptyString, fail]

theorem required_eq_ok_iff :
    required name c ms = .ok x ↔ ∃ v, Entries.find? name ms = some v ∧ c v = .ok x := by
  unfold required
  cases Entries.find? name ms <;> simp [fail]

theorem optional_eq_ok_iff {dflt : α} : optional name dflt c ms = .ok x ↔
    Entries.find? name ms = none ∧ dflt = x ∨ ∃ v, Entries.find? name ms = some v ∧ c v = .ok x := by
  unfold optional
  cases Entries.find? name ms <;> simp

theorem record_eq_ok_iff {check : List (String × Json) → Checked α} :
    record name check v = .ok x ↔ ∃ ms, v = .object ms ∧ check (Entries.ofPairs ms) = .ok x := by
  cases v <;> simp [record, fail]

/-! Of what a check gives, `P` holds; `encode` gives back a value that passes the check. -/

variable {P : α → Prop} {encode : α → Json}

theorem forall_of_members (h : ∀ v x, c v = .ok x → P x) {es : List (String × α)}
    (hes : members c ms = .ok es) : es.length = ms.length ∧ ∀ e ∈ es, P e.2 := by
  induction ms generalizing es with
  | nil =>
    cases hes
    exact ⟨rfl, nofun⟩
  | cons m ms ih =>
    obtain ⟨k, v⟩ := m
    simp only [members, map_eq_ok_iff, pair_eq_ok_iff, under_eq_ok_iff] at hes
    obtain ⟨⟨x, rest⟩, ⟨hx, hrest⟩, rfl⟩ := hes
    obtain ⟨length, all⟩ := ih hrest
    refine ⟨congrArg Nat.succ length, fun e he => ?_⟩
    rcases List.mem_cons.mp he with rfl | he
    · exact h v x hx
    · exact all e he

theorem forall_of_itemsFrom (h : ∀ v x, c v = .ok x → P x) {n : Nat} {vs : List Json} {xs : List α}
    (hxs : itemsFrom c n vs = .ok xs) : xs.length = vs.length ∧ ∀ x ∈ xs, P x := by
  induction vs generalizing n xs with
  | nil =>
    cases hxs
    exact ⟨rfl, nofun⟩
  | cons v vs ih =>
    simp only [itemsFrom, map_eq_ok_iff, pair_eq_ok_iff, under_eq_ok_iff] at hxs
    obtain ⟨⟨x, rest⟩, ⟨hx, hrest⟩, rfl⟩ := hxs
    obtain ⟨length, all⟩ := ih hrest
    refine ⟨congrArg Nat.succ length, fun y hy => ?_⟩
    rcases List.mem_cons.mp hy with rfl | hy
    · exact h v _ hx
    · exact all y hy

theorem members_encode {es : List (String × α)} (h : ∀ e ∈ es, c (encode e.2) = .ok e.2) :
    members c (es.map fun e => (e.1, encode e.2)) = .ok es := by
  induction es with
  | nil => rfl
  | cons e es ih =>
    rw [List.map_cons, members, h e List.mem_cons_self,
      ih fun e he => h e (List.mem_cons_of_mem _ he)]
    rfl

theorem itemsFrom_encode {n : Nat} {xs : List α} (h : ∀ x ∈ xs, c (encode x) = .ok x) :
    itemsFrom c n (xs.map encode) = .ok xs := by
  induction xs generalizing n with
  | nil => rfl
  | cons x xs ih =>
    rw [List.map_cons, itemsFrom, h x List.mem_cons_self,
      ih fun x hx => h x (List.mem_cons_of_mem _ hx)]
    rfl

/-- A dictionary has no key twice. -/
theorem shape_of_dictionary (h : ∀ v x, c v = .ok x → P x) {es : List (String × α)}
    (hes : dictionary c v = .ok es) : (Entries.keys es).Nodup ∧ ∀ e ∈ es, P e.2 := by
  cases v with
  | object ms =>
    simp only [dictionary, map_eq_ok_iff] at hes
    obtain ⟨ps, hps, rfl⟩ := hes
    exact ⟨Entries.nodup_keys_ofPairs ps, fun e he =>
      (forall_of_members h hps).2 e (Entries.mem_of_mem_ofPairs he)⟩
  | _ => cases hes

theorem shape_of_nonEmptyDictionary (h : ∀ v x, c v = .ok x → P x) {es : List (String × α)}
    (hes : nonEmptyDictionary c v = .ok es) :
    es ≠ [] ∧ (Entries.keys es).Nodup ∧ ∀ e ∈ es, P e.2 := by
  unfold nonEmptyDictionary at hes
  split at hes
  · cases hes
  · rename_i hne
    refine ⟨fun hnil => ?_, shape_of_dictionary h hes⟩
    cases v with
    | object ms =>
      simp only [dictionary, map_eq_ok_iff] at hes
      obtain ⟨ps, hps, heq⟩ := hes
      have length := (forall_of_members h hps).1
      rw [Entries.eq_nil_of_ofPairs (heq.trans hnil)] at length
      exact hne (congrArg Json.object (List.length_eq_zero_iff.mp length.symm))
    | _ => cases hes

theorem shape_of_nonEmptyList (h : ∀ v x, c v = .ok x → P x) {xs : List α}
    (hxs : nonEmptyList c v = .ok xs) : xs ≠ [] ∧ ∀ x ∈ xs, P x := by
  unfold nonEmptyList at hxs
  split at hxs
  · cases hxs
  · rename_i hne
    cases v with
    | array vs =>
      obtain ⟨length, all⟩ := forall_of_itemsFrom h hxs
      refine ⟨fun hnil => ?_, all⟩
      rw [hnil] at length
      exact hne (congrArg Json.array (List.length_eq_zero_iff.mp length.symm))
    | _ => cases hxs

theorem dictionary_encode {es : List (String × α)} (nodup : (Entries.keys es).Nodup)
    (h : ∀ e ∈ es, c (encode e.2) = .ok e.2) :
    dictionary c (.object (es.map fun e => (e.1, encode e.2))) = .ok es := by
  rw [dictionary, members_encode h]
  exact congrArg Except.ok (Entries.ofPairs_eq_self nodup)

theorem nonEmptyDictionary_encode {es : List (String × α)} (hne : es ≠ [])
    (nodup : (Entries.keys es).Nodup) (h : ∀ e ∈ es, c (encode e.2) = .ok e.2) :
    nonEmptyDictionary c (.object (es.map fun e => (e.1, encode e.2))) = .ok es := by
  cases es with
  | nil => exact absurd rfl hne
  | cons e es => exact dictionary_encode nodup h

theorem nonEmptyList_encode {xs : List α} (hne : xs ≠ []) (h : ∀ x ∈ xs, c (encode x) = .ok x) :
    nonEmptyList c (.array (xs.map encode)) = .ok xs := by
  cases xs with
  | nil => exact absurd rfl hne
  | cons x xs => exact itemsFrom_encode h

end Schema.Check

/-! ## 3. The shape -/

open Schema

/-- No option has its name twice. -/
def EntryParams.Shaped : EntryParams → Prop
  | .options entries => (Entries.keys entries).Nodup
  | .literals _ => True

/-- What the inputs of a filter or of an output have to be. -/
def ShapedAddresses (rs : List StreamAddress) : Prop := rs ≠ [] ∧ ∀ r ∈ rs, r.node ≠ ""

structure InputEntry.Shaped (e : InputEntry) : Prop where
  path : e.path ≠ ""
  params : e.params.Shaped

structure FilterEntry.Shaped (f : FilterEntry) : Prop where
  name : f.name ≠ ""
  inputs : ShapedAddresses f.inputs
  params : f.params.Shaped

structure OutputEntry.Shaped (o : OutputEntry) : Prop where
  path : o.path ≠ ""
  inputs : ShapedAddresses o.inputs
  params : o.params.Shaped

/-- What a document has to be before its rules are looked at. -/
structure Document.Shaped (d : Document) : Prop where
  someInput : d.inputs ≠ []
  inputIds : (Entries.keys d.inputs).Nodup
  inputs : ∀ e ∈ d.inputs, e.2.Shaped
  filterIds : (Entries.keys d.filters).Nodup
  filters : ∀ f ∈ d.filters, f.2.Shaped
  someOutput : d.outputs ≠ []
  outputs : ∀ o ∈ d.outputs, o.Shaped

section Shapes

variable {v : Json} {ms : List (String × Json)}

open Check

theorem EntryParams.shaped_of_check {params : EntryParams} (h : EntryParams.check v = .ok params) :
    params.Shaped := by
  unfold EntryParams.check at h
  dsimp only at h
  split at h
  · rename_i entries heq
    cases h
    rw [under_eq_ok_iff] at heq
    have shape := shape_of_dictionary (P := fun _ => True) (fun _ _ _ => trivial) heq
    exact shape.1
  · cases h
    trivial
  · cases h

theorem shaped_of_checkParams {params : EntryParams} (h : checkParams ms = .ok params) :
    params.Shaped := by
  rcases optional_eq_ok_iff.mp h with ⟨_, rfl⟩ | ⟨v, _, h⟩
  · exact List.nodup_nil
  · exact EntryParams.shaped_of_check h

theorem StreamAddress.node_ne_empty_of_check {r : StreamAddress}
    (h : StreamAddress.check v = .ok r) : r.node ≠ "" := by
  have named : ∀ ms, StreamAddress.checkMembers ms = .ok r → r.node ≠ "" := by
    intro ms hm
    simp only [checkMembers, map_eq_ok_iff, pair_eq_ok_iff, required_eq_ok_iff,
      nonEmptyString_eq_ok_iff] at hm
    obtain ⟨_, ⟨⟨_, _, _, hne⟩, _⟩, rfl⟩ := hm
    exact hne
  unfold StreamAddress.check at h
  split at h
  · exact named _ h
  · obtain ⟨ms, _, hm⟩ := record_eq_ok_iff.mp h
    exact named _ hm

theorem shaped_of_checkInputs {rs : List StreamAddress} (h : checkInputs ms = .ok rs) :
    ShapedAddresses rs := by
  obtain ⟨v, _, h⟩ := required_eq_ok_iff.mp h
  exact shape_of_nonEmptyList (fun _ _ => StreamAddress.node_ne_empty_of_check) h

theorem InputEntry.shaped_of_check {e : InputEntry} (h : InputEntry.check v = .ok e) :
    e.Shaped := by
  obtain ⟨ms, _, h⟩ := record_eq_ok_iff.mp h
  simp only [map_eq_ok_iff, pair_eq_ok_iff, required_eq_ok_iff, nonEmptyString_eq_ok_iff] at h
  obtain ⟨_, ⟨⟨_, _, _, path⟩, params, _⟩, rfl⟩ := h
  exact ⟨path, shaped_of_checkParams params⟩

theorem FilterEntry.shaped_of_check {f : FilterEntry} (h : FilterEntry.check v = .ok f) :
    f.Shaped := by
  obtain ⟨ms, _, h⟩ := record_eq_ok_iff.mp h
  simp only [map_eq_ok_iff, pair_eq_ok_iff, required_eq_ok_iff, nonEmptyString_eq_ok_iff] at h
  obtain ⟨_, ⟨⟨_, _, _, name⟩, inputs, params, _⟩, rfl⟩ := h
  exact ⟨name, shaped_of_checkInputs inputs, shaped_of_checkParams params⟩

theorem OutputEntry.shaped_of_check {o : OutputEntry} (h : OutputEntry.check v = .ok o) :
    o.Shaped := by
  obtain ⟨ms, _, h⟩ := record_eq_ok_iff.mp h
  simp only [map_eq_ok_iff, pair_eq_ok_iff, required_eq_ok_iff, nonEmptyString_eq_ok_iff] at h
  obtain ⟨_, ⟨⟨_, _, _, path⟩, inputs, params, _⟩, rfl⟩ := h
  exact ⟨path, shaped_of_checkInputs inputs, shaped_of_checkParams params⟩

/-- **What passes the check has the shape of a document.** -/
theorem Document.shaped_of_check {d : Document} (h : Document.check v = .ok d) : d.Shaped := by
  obtain ⟨ms, _, h⟩ := record_eq_ok_iff.mp h
  simp only [map_eq_ok_iff, pair_eq_ok_iff, required_eq_ok_iff, optional_eq_ok_iff] at h
  obtain ⟨⟨es, fs, os, u⟩, ⟨⟨_, _, inputs⟩, filters, ⟨_, _, outputs⟩, _⟩, rfl⟩ := h
  obtain ⟨someInput, inputIds, inputs⟩ :=
    shape_of_nonEmptyDictionary (fun _ _ => InputEntry.shaped_of_check) inputs
  obtain ⟨someOutput, outputs⟩ :=
    shape_of_nonEmptyList (fun _ _ => OutputEntry.shaped_of_check) outputs
  have filters : (Entries.keys fs).Nodup ∧ ∀ f ∈ fs, f.2.Shaped := by
    rcases filters with ⟨_, heq⟩ | ⟨_, _, filters⟩
    · dsimp only at heq
      rw [← heq]
      exact ⟨List.nodup_nil, nofun⟩
    · exact shape_of_dictionary (fun _ _ => FilterEntry.shaped_of_check) filters
  exact ⟨someInput, inputIds, inputs, filters.1, filters.2, someOutput, outputs⟩

end Shapes

/-! ## 4. A value for every document -/

def ParamValue.toJson : ParamValue → Json
  | .text s => .string s
  | .int i => .int i
  | .float x => .float x

def EntryParams.toJson : EntryParams → Json
  | .options entries => .object (entries.map fun e => (e.1, e.2.toJson))
  | .literals args => .array (args.map ParamValue.toJson)

/-- The record of an address. -/
def StreamAddress.toJson (r : StreamAddress) : Json :=
  .object [("node", .string r.node), ("label", .string r.label),
    ("selector", match r.selector with
      | some c => .string c.letter
      | none => .null)]

def InputEntry.toJson (e : InputEntry) : Json :=
  .object [("path", .string e.path), ("params", e.params.toJson)]

def FilterEntry.toJson (f : FilterEntry) : Json :=
  .object [("name", .string f.name), ("inputs", .array (f.inputs.map StreamAddress.toJson)),
    ("params", f.params.toJson)]

def OutputEntry.toJson (o : OutputEntry) : Json :=
  .object [("path", .string o.path), ("inputs", .array (o.inputs.map StreamAddress.toJson)),
    ("params", o.params.toJson)]

/-- The value of a document, with everything written out. -/
def Document.toJson (d : Document) : Json :=
  .object [("inputs", .object (d.inputs.map fun e => (e.1, e.2.toJson))),
    ("filters", .object (d.filters.map fun f => (f.1, f.2.toJson))),
    ("outputs", .array (d.outputs.map OutputEntry.toJson))]

section Values

open Check

theorem ParamValue.check_toJson (p : ParamValue) : ParamValue.check p.toJson = .ok p := by
  cases p <;> rfl

theorem EntryParams.check_toJson {params : EntryParams} (h : params.Shaped) :
    EntryParams.check params.toJson = .ok params := by
  cases params with
  | options entries =>
    have options := dictionary_encode h fun e _ => e.2.check_toJson
    rw [toJson, EntryParams.check, options]
    rfl
  | literals args =>
    have literals : Check.list ParamValue.check (.array (args.map ParamValue.toJson)) = .ok args :=
      itemsFrom_encode fun p _ => p.check_toJson
    rw [toJson, EntryParams.check, literals]
    rfl

theorem required_ok {α : Type} {name : String} {c : Json → Checked α} {ms : List (String × Json)}
    {v : Json} {x : α} (found : Entries.find? name ms = some v) (h : c v = .ok x) :
    required name c ms = .ok x :=
  required_eq_ok_iff.mpr ⟨v, found, h⟩

theorem optional_ok {α : Type} {name : String} {dflt : α} {c : Json → Checked α}
    {ms : List (String × Json)} {v : Json} {x : α} (found : Entries.find? name ms = some v)
    (h : c v = .ok x) : optional name dflt c ms = .ok x :=
  optional_eq_ok_iff.mpr (.inr ⟨v, found, h⟩)

theorem pair_ok {α β : Type} {a : Checked α} {b : Checked β} {x : α} {y : β} (ha : a = .ok x)
    (hb : b = .ok y) : pair a b = .ok (x, y) :=
  pair_eq_ok_iff.mpr ⟨ha, hb⟩

theorem StreamAddress.check_toJson {r : StreamAddress} (h : r.node ≠ "") :
    StreamAddress.check r.toJson = .ok r := by
  have selector : checkSelector (match r.selector with
      | some c => .string c.letter
      | none => .null) = .ok r.selector := by
    cases r.selector with
    | none => rfl
    | some c =>
      dsimp only [checkSelector]
      rw [Selector.ofLetter?_letter]
  show record "StreamRef" checkMembers r.toJson = .ok r
  refine record_eq_ok_iff.mpr ⟨_, rfl, ?_⟩
  rw [Entries.ofPairs_eq_self (by simp [Entries.keys])]
  refine map_eq_ok_iff.mpr ⟨(r.node, r.label, r.selector, ()), ?_, rfl⟩
  exact pair_ok (required_ok rfl (nonEmptyString_eq_ok_iff.mpr ⟨rfl, h⟩))
    (pair_ok (optional_ok rfl rfl) (pair_ok (optional_ok rfl selector) rfl))

theorem checkInputs_toJson {rs : List StreamAddress} (h : ShapedAddresses rs)
    {ms : List (String × Json)}
    (found : Entries.find? "inputs" ms = some (.array (rs.map StreamAddress.toJson))) :
    checkInputs ms = .ok rs :=
  required_ok found (nonEmptyList_encode h.1 fun r hr => StreamAddress.check_toJson (h.2 r hr))

theorem InputEntry.check_toJson {e : InputEntry} (h : e.Shaped) :
    InputEntry.check e.toJson = .ok e := by
  refine record_eq_ok_iff.mpr ⟨_, rfl, ?_⟩
  rw [Entries.ofPairs_eq_self (by simp [Entries.keys])]
  refine map_eq_ok_iff.mpr ⟨(e.path, e.params, ()), ?_, rfl⟩
  exact pair_ok (required_ok rfl (nonEmptyString_eq_ok_iff.mpr ⟨rfl, h.path⟩))
    (pair_ok (optional_ok rfl (EntryParams.check_toJson h.params)) rfl)

theorem FilterEntry.check_toJson {f : FilterEntry} (h : f.Shaped) :
    FilterEntry.check f.toJson = .ok f := by
  refine record_eq_ok_iff.mpr ⟨_, rfl, ?_⟩
  rw [Entries.ofPairs_eq_self (by simp [Entries.keys])]
  refine map_eq_ok_iff.mpr ⟨(f.name, f.inputs, f.params, ()), ?_, rfl⟩
  exact pair_ok (required_ok rfl (nonEmptyString_eq_ok_iff.mpr ⟨rfl, h.name⟩))
    (pair_ok (checkInputs_toJson h.inputs rfl)
      (pair_ok (optional_ok rfl (EntryParams.check_toJson h.params)) rfl))

theorem OutputEntry.check_toJson {o : OutputEntry} (h : o.Shaped) :
    OutputEntry.check o.toJson = .ok o := by
  refine record_eq_ok_iff.mpr ⟨_, rfl, ?_⟩
  rw [Entries.ofPairs_eq_self (by simp [Entries.keys])]
  refine map_eq_ok_iff.mpr ⟨(o.path, o.inputs, o.params, ()), ?_, rfl⟩
  exact pair_ok (required_ok rfl (nonEmptyString_eq_ok_iff.mpr ⟨rfl, h.path⟩))
    (pair_ok (checkInputs_toJson h.inputs rfl)
      (pair_ok (optional_ok rfl (EntryParams.check_toJson h.params)) rfl))

/-- **The value of a document is read as the document.** -/
theorem Document.check_toJson {d : Document} (h : d.Shaped) : Document.check d.toJson = .ok d := by
  refine record_eq_ok_iff.mpr ⟨_, rfl, ?_⟩
  rw [Entries.ofPairs_eq_self (by simp [Entries.keys])]
  refine map_eq_ok_iff.mpr ⟨(d.inputs, d.filters, d.outputs, ()), ?_, rfl⟩
  exact pair_ok (required_ok rfl (nonEmptyDictionary_encode h.someInput h.inputIds fun e he =>
      InputEntry.check_toJson (h.inputs e he)))
    (pair_ok (optional_ok rfl (dictionary_encode h.filterIds fun f hf =>
        FilterEntry.check_toJson (h.filters f hf)))
      (pair_ok (required_ok rfl (nonEmptyList_encode h.someOutput fun o ho =>
        OutputEntry.check_toJson (h.outputs o ho))) rfl))

end Values

namespace Pipeline

variable {v : Json} {d : Document}

theorem document_of_ofJson {p : Pipeline} (h : ofJson v = .ok p) :
    Document.check v = .ok p.document := by
  unfold ofJson at h
  split at h
  · cases h
  · rename_i heq
    split at h
    · cases h
    · cases h
      exact heq

/-- A value of the shape of a document that keeps the rules is read. -/
theorem ofJson_eq_ok {order : List String} (shape : Document.check v = .ok d)
    (h : d.order = .ok order) : ofJson v = .ok ⟨d, order, h⟩ := by
  unfold ofJson
  rw [shape]
  dsimp only
  split
  · rename_i he
    cases h.symm.trans he
  · rename_i ho
    cases h.symm.trans ho
    rfl

/-- **A document is read from some value exactly when it has the shape and keeps the rules.** -/
theorem exists_ofJson_iff : (∃ v p, ofJson v = .ok p ∧ p.document = d) ↔
    d.Shaped ∧ ∃ order, d.order = .ok order := by
  constructor
  · rintro ⟨v, p, h, rfl⟩
    exact ⟨Document.shaped_of_check (document_of_ofJson h), p.order, p.document_order⟩
  · rintro ⟨shaped, order, h⟩
    exact ⟨_, _, ofJson_eq_ok (Document.check_toJson shaped) h, rfl⟩

end Pipeline

end FilterGraph
