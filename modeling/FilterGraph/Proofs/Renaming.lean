import FilterGraph.Proofs.DocumentShape
import FilterGraph.Proofs.ValidDocument
import Mathlib.Data.List.Nodup
import Mathlib.Data.Set.Function

/-!
# Other names for a document

The ids of a document are renamed, all references with them, and the inputs and filters are listed
in another order.

* `Entries.find?_perm`, `Entries.find?_map_keys`: the look-up in a table that is listed in another order,
  or whose keys are renamed;
* `Document.renamed`, `Document.Reorders`, `Document.Renames`: what is done to the document;
* `Renames.find?_filters`, `Renames.mem_inputIds_iff`: what a new id stands for is what the old one
  stood for;
* `Renames.shaped`, `Renames.exists_order`: **the new document has the shape of a document and keeps the
  rules**. The new ids have the ranks of the old ones.
-/

namespace FilterGraph

/-! ## 1. Tables -/

namespace Entries

variable {κ ν μ : Type} [DecidableEq κ] {es es' : List (κ × ν)} {k : κ}

/-- Where no key occurs twice the order of the entries does not matter. -/
theorem find?_perm (h : es.Perm es') (nodup : (keys es).Nodup) (k : κ) :
    find? k es' = find? k es := by
  have nodup' : (keys es').Nodup := (h.map Prod.fst).nodup_iff.mp nodup
  ext v
  rw [find?_eq_some_iff_mem nodup', find?_eq_some_iff_mem nodup, h.mem_iff]

/-- Renamed apart, keys have the images of their values. -/
theorem find?_map_keys {ren : κ → κ} {ids : List κ} (inj : Set.InjOn ren {a | a ∈ ids}) (φ : ν → μ)
    (hes : ∀ a ∈ keys es, a ∈ ids) (hk : k ∈ ids) :
    find? (ren k) (es.map fun e => (ren e.1, φ e.2)) = (find? k es).map φ := by
  induction es with
  | nil => rfl
  | cons e es ih =>
    obtain ⟨a, v⟩ := e
    have ha : a ∈ ids := hes a List.mem_cons_self
    have rest := ih fun b hb => hes b (List.mem_cons_of_mem _ hb)
    rw [List.map_cons, find?, find?]
    by_cases heq : a = k
    · rw [if_pos heq, if_pos (congrArg ren heq)]
      rfl
    · rw [if_neg heq, if_neg fun h => heq (inj ha hk h)]
      exact rest

end Entries

/-! ## 2. Renamed documents -/

def StreamAddress.renamed (ren : String → String) (r : StreamAddress) : StreamAddress :=
  { r with node := ren r.node }

def FilterEntry.renamed (ren : String → String) (f : FilterEntry) : FilterEntry :=
  { f with inputs := f.inputs.map (·.renamed ren) }

def OutputEntry.renamed (ren : String → String) (o : OutputEntry) : OutputEntry :=
  { o with inputs := o.inputs.map (·.renamed ren) }

/-- Filters under other ids, which the references of the filters follow. -/
structure Filters.Renamed (ren : String → String) (ids : List String) (fs fs' : Filters) : Prop where
  injOn : Set.InjOn ren {id | id ∈ ids}
  find? : ∀ id ∈ ids, Entries.find? (ren id) fs' =
    (Entries.find? id fs).map (FilterEntry.renamed ren)
  references : ∀ id f, Entries.find? id fs = some f → ∀ r ∈ f.inputs, r.node ∈ ids

namespace Document

/-- The document with every id replaced, where it is given and where it is referred to. -/
def renamed (ren : String → String) (d : Document) : Document where
  inputs := d.inputs.map fun e => (ren e.1, e.2)
  filters := d.filters.map fun f => (ren f.1, f.2.renamed ren)
  outputs := d.outputs.map (·.renamed ren)

/-- The ids of the inputs and filters. -/
def ids (d : Document) : List String := d.inputIds ++ d.filters.map (·.1)

/-- The same inputs and filters in any order, and the same outputs. -/
structure Reorders (d d' : Document) : Prop where
  inputs : d.inputs.Perm d'.inputs
  filters : d.filters.Perm d'.filters
  outputs : d'.outputs = d.outputs

/-- The ids of a document are replaced by other ids, different ones by different ones, and its inputs
and filters are put into any order. -/
structure Renames (ren : String → String) (d d' : Document) : Prop where
  injOn : Set.InjOn ren {id | id ∈ d.ids}
  wellFormed : ∀ id ∈ d.ids, wellFormedId (ren id) = true
  reorders : (d.renamed ren).Reorders d'

variable {d d' : Document} {ren : String → String} {id : String} {r : StreamAddress}

theorem Names.mem_ids (h : d.Names r) : r.node ∈ d.ids := by
  cases h with
  | input hin _ => exact List.mem_append_left _ hin
  | filter _ f hf => exact List.mem_append_right _ (List.mem_map_of_mem (Entries.mem_of_find? hf))

theorem mem_ids_of_find? {f : FilterEntry} (h : Entries.find? id d.filters = some f) : id ∈ d.ids :=
  List.mem_append_right _ (List.mem_map_of_mem (Entries.mem_of_find? h))

/-- The addresses of a document are those of its filters and those of its outputs. -/
theorem mem_addresses_iff : r ∈ d.addresses ↔
    (∃ f ∈ d.filters, r ∈ f.2.inputs) ∨ ∃ o ∈ d.outputs, r ∈ o.inputs := by
  rw [addresses, List.mem_append, List.mem_flatMap, List.mem_flatMap]

namespace Renames

/-! ## 3. What the new ids stand for -/

theorem inputIds_perm (h : Renames ren d d') : (d.inputIds.map ren).Perm d'.inputIds := by
  have perm := h.reorders.inputs.map (·.1)
  rw [renamed, List.map_map] at perm
  rw [inputIds, List.map_map]
  exact perm

theorem filterIds_perm (h : Renames ren d d') :
    ((d.filters.map (·.1)).map ren).Perm (d'.filters.map (·.1)) := by
  have perm := h.reorders.filters.map (·.1)
  rw [renamed, List.map_map] at perm
  rw [List.map_map]
  exact perm

theorem ids_perm (h : Renames ren d d') : (d.ids.map ren).Perm d'.ids := by
  rw [ids, List.map_append]
  exact h.inputIds_perm.append h.filterIds_perm

/-- A new id is that of an input exactly when the old one is. -/
theorem mem_inputIds_iff (h : Renames ren d d') (hid : id ∈ d.ids) :
    ren id ∈ d'.inputIds ↔ id ∈ d.inputIds := by
  rw [← h.inputIds_perm.mem_iff, List.mem_map]
  constructor
  · rintro ⟨x, hx, heq⟩
    exact h.injOn (List.mem_append_left _ hx) hid heq ▸ hx
  · exact fun hin => ⟨id, hin, rfl⟩

theorem nodup_inputIds (h : Renames ren d d') (nodup : d.inputIds.Nodup) : d'.inputIds.Nodup :=
  h.inputIds_perm.nodup_iff.mp (List.Nodup.map_on
    (fun _ ha _ hb => h.injOn (List.mem_append_left _ ha) (List.mem_append_left _ hb)) nodup)

theorem nodup_filterIds (h : Renames ren d d') (nodup : (d.filters.map (·.1)).Nodup) :
    (d'.filters.map (·.1)).Nodup :=
  h.filterIds_perm.nodup_iff.mp (List.Nodup.map_on
    (fun _ ha _ hb => h.injOn (List.mem_append_right _ ha) (List.mem_append_right _ hb)) nodup)

/-- **A new id stands for the renamed filter of the old one.** -/
theorem find?_filters (h : Renames ren d d') (nodup : (Entries.keys d.filters).Nodup)
    (hid : id ∈ d.ids) : Entries.find? (ren id) d'.filters =
      (Entries.find? id d.filters).map (FilterEntry.renamed ren) := by
  have nodup' : (Entries.keys (d.renamed ren).filters).Nodup :=
    (h.reorders.filters.map Prod.fst).nodup_iff.mpr (h.nodup_filterIds nodup)
  rw [Entries.find?_perm h.reorders.filters nodup']
  exact Entries.find?_map_keys h.injOn _ (fun a ha => List.mem_append_right _ ha) hid

theorem filters_renamed (h : Renames ren d d') (nodup : (Entries.keys d.filters).Nodup)
    (names : ∀ r ∈ d.addresses, d.Names r) : Filters.Renamed ren d.ids d.filters d'.filters where
  injOn := h.injOn
  find? _ hid := h.find?_filters nodup hid
  references _ _ hf r hr :=
    (names r (mem_addresses_iff.mpr (.inl ⟨_, Entries.mem_of_find? hf, hr⟩))).mem_ids

/-- Each filter of the new document is one of the old document. -/
theorem exists_filter (h : Renames ren d d') {f' : String × FilterEntry} (hf' : f' ∈ d'.filters) :
    ∃ f ∈ d.filters, f' = (ren f.1, f.2.renamed ren) := by
  obtain ⟨f, hf, rfl⟩ := List.mem_map.mp (h.reorders.filters.mem_iff.mpr hf')
  exact ⟨f, hf, rfl⟩

theorem exists_input (h : Renames ren d d') {e' : String × InputEntry} (he' : e' ∈ d'.inputs) :
    ∃ e ∈ d.inputs, e' = (ren e.1, e.2) := by
  obtain ⟨e, he, rfl⟩ := List.mem_map.mp (h.reorders.inputs.mem_iff.mpr he')
  exact ⟨e, he, rfl⟩

theorem exists_output (h : Renames ren d d') {o' : OutputEntry} (ho' : o' ∈ d'.outputs) :
    ∃ o ∈ d.outputs, o' = o.renamed ren := by
  rw [h.reorders.outputs] at ho'
  obtain ⟨o, ho, rfl⟩ := List.mem_map.mp ho'
  exact ⟨o, ho, rfl⟩

theorem exists_address (h : Renames ren d d') {r' : StreamAddress} (hr' : r' ∈ d'.addresses) :
    ∃ r ∈ d.addresses, r' = r.renamed ren := by
  rcases mem_addresses_iff.mp hr' with ⟨f', hf', hr'⟩ | ⟨o', ho', hr'⟩
  · obtain ⟨f, hf, rfl⟩ := h.exists_filter hf'
    obtain ⟨r, hr, rfl⟩ := List.mem_map.mp hr'
    exact ⟨r, mem_addresses_iff.mpr (.inl ⟨f, hf, hr⟩), rfl⟩
  · obtain ⟨o, ho, rfl⟩ := h.exists_output ho'
    obtain ⟨r, hr, rfl⟩ := List.mem_map.mp hr'
    exact ⟨r, mem_addresses_iff.mpr (.inr ⟨o, ho, hr⟩), rfl⟩

/-! ## 4. The new document -/

theorem shapedAddresses (h : Renames ren d d') {rs : List StreamAddress} (shaped : ShapedAddresses rs)
    (names : ∀ r ∈ rs, d.Names r) : ShapedAddresses (rs.map (·.renamed ren)) := by
  refine ⟨fun hnil => shaped.1 (List.map_eq_nil_iff.mp hnil), fun r' hr' heq => ?_⟩
  obtain ⟨r, hr, rfl⟩ := List.mem_map.mp hr'
  have wellFormed := h.wellFormed r.node (names r hr).mem_ids
  rw [show ren r.node = "" from heq] at wellFormed
  cases wellFormed

/-- **The new document has the shape of a document.** -/
theorem shaped (h : Renames ren d d') (shaped : d.Shaped) (names : ∀ r ∈ d.addresses, d.Names r) :
    d'.Shaped where
  someInput hnil := by
    have perm := h.reorders.inputs
    rw [hnil] at perm
    exact shaped.someInput (List.map_eq_nil_iff.mp perm.eq_nil)
  inputIds := h.nodup_inputIds shaped.inputIds
  inputs e' he' := by
    obtain ⟨e, he, rfl⟩ := h.exists_input he'
    exact shaped.inputs e he
  filterIds := h.nodup_filterIds shaped.filterIds
  filters f' hf' := by
    obtain ⟨f, hf, rfl⟩ := h.exists_filter hf'
    have old := shaped.filters f hf
    exact ⟨old.name, h.shapedAddresses old.inputs fun r hr =>
      names r (mem_addresses_iff.mpr (.inl ⟨f, hf, hr⟩)), old.params⟩
  someOutput hnil := by
    rw [h.reorders.outputs] at hnil
    exact shaped.someOutput (List.map_eq_nil_iff.mp hnil)
  outputs o' ho' := by
    obtain ⟨o, ho, rfl⟩ := h.exists_output ho'
    have old := shaped.outputs o ho
    exact ⟨old.path, h.shapedAddresses old.inputs fun r hr =>
      names r (mem_addresses_iff.mpr (.inr ⟨o, ho, hr⟩)), old.params⟩

theorem checkIds_ok (h : Renames ren d d') (ok : d.checkIds = .ok ()) : d'.checkIds = .ok () := by
  obtain ⟨_, apart⟩ := checkIds_eq_ok_iff.mp ok
  refine checkIds_eq_ok_iff.mpr ⟨fun id' hid' => ?_, fun id' hin hfilter => ?_⟩
  · obtain ⟨id, hid, rfl⟩ := List.mem_map.mp (h.ids_perm.mem_iff.mpr hid')
    exact h.wellFormed id hid
  · obtain ⟨id, hid, rfl⟩ := List.mem_map.mp (h.filterIds_perm.mem_iff.mpr hfilter)
    have old : id ∈ d.inputIds := (h.mem_inputIds_iff (List.mem_append_right _ hid)).mp hin
    exact apart id old hid

/-- A renamed address names what the address names. -/
theorem names (h : Renames ren d d') (nodup : (Entries.keys d.filters).Nodup) (hr : d.Names r) :
    d'.Names (r.renamed ren) := by
  have known := hr.mem_ids
  cases hr with
  | input hin label => exact .input ((h.mem_inputIds_iff known).mpr hin) label
  | filter hout f hf =>
    refine .filter (fun hin => hout ((h.mem_inputIds_iff known).mp hin)) (f.renamed ren) ?_
    exact (h.find?_filters nodup known).trans (congrArg (Option.map _) hf)

/-- **The new document keeps the rules.** A new id has the rank of the id that it replaces. -/
theorem exists_order (h : Renames ren d d') (nodup : (Entries.keys d.filters).Nodup)
    {order : List String} (ok : d.order = .ok order) : ∃ order', d'.order = .ok order' := by
  have names := names_of_order ok
  obtain ⟨rank, _, _, falls⟩ := exists_rank ok
  let rank' (id' : String) : Nat := rank (Function.invFunOn ren {id | id ∈ d.ids} id')
  have same : ∀ id ∈ d.ids, rank' (ren id) = rank id := fun id hid =>
    congrArg rank (h.injOn.leftInvOn_invFunOn hid)
  have falls' : ∀ id' f', Entries.find? id' d'.filters = some f' → ∀ r' ∈ f'.inputs,
      (Entries.find? r'.node d'.filters).isSome → rank' r'.node < rank' id' := by
    intro id' f' hf' r' hr' there'
    obtain ⟨⟨id, f⟩, hf, heq⟩ := h.exists_filter (Entries.mem_of_find? hf')
    obtain ⟨rfl, rfl⟩ := Prod.mk.inj heq
    obtain ⟨r, hr, rfl⟩ := List.mem_map.mp hr'
    have found := (Entries.find?_eq_some_iff_mem nodup).mpr hf
    have known : r.node ∈ d.ids := (names r (mem_addresses_iff.mpr (.inl ⟨_, hf, hr⟩))).mem_ids
    have there : (Entries.find? r.node d.filters).isSome := by
      rw [show (r.renamed ren).node = ren r.node from rfl, h.find?_filters nodup known,
        Option.isSome_map] at there'
      exact there'
    rw [show (r.renamed ren).node = ren r.node from rfl, same _ known,
      same _ (mem_ids_of_find? found)]
    exact falls id f found r hr there
  obtain ⟨order', horder⟩ := Filters.exists_order falls'
  refine ⟨order', order_eq_ok_iff.mpr ⟨h.checkIds_ok (order_eq_ok_iff.mp ok).1,
    checkAddresses_eq_ok fun r' hr' => ?_, horder⟩⟩
  obtain ⟨r, hr, rfl⟩ := h.exists_address hr'
  exact h.names nodup (names r hr)

end Renames

end Document

end FilterGraph
