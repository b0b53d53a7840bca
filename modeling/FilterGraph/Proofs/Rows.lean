import Mathlib.Data.List.Forall2
import Mathlib.Data.List.Induction
import Mathlib.Data.List.Nodup
import Mathlib.Data.List.Perm.Basic
import Mathlib.Data.Option.Basic

/-!
# Rows

Lists whose members are computed or compared one by one.

* `mapM_eq_ok_iff`: a row of computations goes through when each of them does;
* `exists_getElem?_of_forall₂`, `exists_mem_of_forall₂`: related rows are related place by place;
* `exists_perm_of_map_perm`: rows with the same values in any order are related, one of them
  brought into another order;
* `mapM_rel_of_perm`: the results of a row in another order are the results in another order;
* `eraseDups_concat`, `nodup_eraseDups`: a row with each member at its first place only.
-/

namespace FilterGraph

variable {α β ε : Type} {l l' : List α}

/-! ## 1. Computations -/

section Computations

variable {f : α → Except ε β} {r : List β}

/-- A computation that goes through has gone through its first part. -/
theorem exists_of_bind_eq_ok {x : Except ε α} {k : α → Except ε β} {b : β}
    (h : x >>= k = .ok b) : ∃ a, x = .ok a ∧ k a = .ok b := by
  cases x with
  | error e => cases h
  | ok a => exact ⟨a, rfl, h⟩

/-- What is computed from a result is there when the result is. -/
theorem map_eq_ok_iff {x : Except ε α} {g : α → β} {b : β} :
    x.map g = .ok b ↔ ∃ a, x = .ok a ∧ g a = b := by
  cases x <;> simp [Except.map]

/-- A row goes through when each of its results does. -/
theorem mapM_eq_ok_iff : l.mapM f = .ok r ↔ List.Forall₂ (fun a b => f a = .ok b) l r := by
  induction l generalizing r with
  | nil =>
    rw [List.mapM_nil, List.forall₂_nil_left_iff]
    exact ⟨fun h => (Except.ok.inj h).symm, fun h => h ▸ rfl⟩
  | cons a l ih =>
    rw [List.mapM_cons, List.forall₂_cons_left_iff]
    constructor
    · intro h
      obtain ⟨b, hb, h⟩ := exists_of_bind_eq_ok h
      obtain ⟨bs, hbs, h⟩ := exists_of_bind_eq_ok h
      exact ⟨b, bs, hb, ih.mp hbs, (Except.ok.inj h).symm⟩
    · rintro ⟨b, bs, hb, hbs, rfl⟩
      rw [hb, ih.mpr hbs]
      rfl

/-- A row whose members all have a result goes through. -/
theorem mapM_ok_of_forall (h : ∀ a ∈ l, ∃ b, f a = .ok b) : ∃ r, l.mapM f = .ok r := by
  induction l with
  | nil => exact ⟨[], rfl⟩
  | cons a l ih =>
    obtain ⟨b, hb⟩ := h a List.mem_cons_self
    obtain ⟨r, hr⟩ := ih fun x hx => h x (List.mem_cons_of_mem _ hx)
    exact ⟨b :: r, mapM_eq_ok_iff.mpr (.cons hb (mapM_eq_ok_iff.mp hr))⟩

/-- The results of a row, errors left aside. -/
theorem toOption_mapM (f : α → Except ε β) (l : List α) :
    (l.mapM f).toOption = l.mapM fun a => (f a).toOption := by
  induction l with
  | nil => rfl
  | cons a l ih =>
    rw [List.mapM_cons, List.mapM_cons, ← ih]
    cases f a with
    | error e => rfl
    | ok b => cases l.mapM f <;> rfl

/-- A row of computations on the image of a row. -/
theorem mapM_map_mapError {α' ε' : Type} {f : α → Except ε β} {f' : α' → Except ε' β} (v : α → α')
    (w : ε → ε') (h : ∀ a, f' (v a) = (f a).mapError w) (l : List α) :
    (l.map v).mapM f' = (l.mapM f).mapError w := by
  induction l with
  | nil => rfl
  | cons a l ih =>
    rw [List.map_cons, List.mapM_cons, List.mapM_cons, ih, h]
    cases f a with
    | error e => rfl
    | ok b => cases l.mapM f <;> rfl

end Computations

/-! ## 2. Results side by side -/

section Results

variable {R : α → α → Prop} {x y z : Option α}

theorem rel_of_eq (h : x = y) : Option.Rel (· = ·) x y := by
  subst h
  cases x with
  | none => exact .none
  | some a => exact .some rfl

theorem rel_trans (hR : ∀ a b c, R a b → R b c → R a c) (hxy : Option.Rel R x y)
    (hyz : Option.Rel R y z) : Option.Rel R x z := by
  cases hxy with
  | none => exact hyz
  | some h =>
    cases hyz with
    | some h' => exact .some (hR _ _ _ h h')

/-- Computations that go on alike from related results have related results. -/
theorem rel_bind {S : β → β → Prop} {k k' : α → Option β} (h : Option.Rel R x y)
    (hk : ∀ a b, R a b → Option.Rel S (k a) (k' b)) : Option.Rel S (x.bind k) (y.bind k') := by
  cases h with
  | none => exact .none
  | some h => exact hk _ _ h

theorem rel_map {S : β → β → Prop} {f f' : α → β} (h : Option.Rel R x y)
    (hf : ∀ a b, R a b → S (f a) (f' b)) : Option.Rel S (x.map f) (y.map f') := by
  cases h with
  | none => exact .none
  | some h => exact .some (hf _ _ h)

end Results

/-! ## 3. Related rows -/

section Related

variable {r : List β}

/-- Related rows are related place by place. -/
theorem exists_getElem?_of_forall₂ {R : α → β → Prop} (h : List.Forall₂ R l r) {j : Nat} {a : α}
    (ha : l[j]? = some a) : ∃ b, r[j]? = some b ∧ R a b := by
  induction h generalizing j with
  | nil => simp at ha
  | cons hab _ ih =>
    cases j with
    | zero =>
      cases ha
      exact ⟨_, rfl, hab⟩
    | succ j => exact ih (by simpa using ha)

theorem exists_mem_of_forall₂ {R : α → β → Prop} (h : List.Forall₂ R l r) {a : α} (ha : a ∈ l) :
    ∃ b ∈ r, R a b := by
  obtain ⟨j, hj⟩ := List.mem_iff_getElem?.mp ha
  obtain ⟨b, hb, hab⟩ := exists_getElem?_of_forall₂ h hj
  exact ⟨b, List.mem_of_getElem? hb, hab⟩

/-- A row whose members all have something that they are related to is related to a row. -/
theorem exists_forall₂_of_forall {R : α → β → Prop} (h : ∀ a ∈ l, ∃ b, R a b) :
    ∃ r, List.Forall₂ R l r := by
  induction l with
  | nil => exact ⟨[], .nil⟩
  | cons a l ih =>
    obtain ⟨b, hb⟩ := h a List.mem_cons_self
    obtain ⟨r, hr⟩ := ih fun x hx => h x (List.mem_cons_of_mem _ hx)
    exact ⟨b :: r, .cons hb hr⟩

/-- Related members are members. -/
theorem forall₂_and_mem {R : α → β → Prop} (h : List.Forall₂ R l r) :
    List.Forall₂ (fun a b => (a ∈ l ∧ b ∈ r) ∧ R a b) l r :=
  List.forall₂_iff_get.mpr ⟨h.length_eq, fun _ ha hb =>
    ⟨⟨List.get_mem _ _, List.get_mem _ _⟩, h.get ha hb⟩⟩

/-- A relation between rows may be weakened with the members of the first at hand. -/
theorem forall₂_imp_mem {R S : α → β → Prop} (h : List.Forall₂ R l r)
    (hi : ∀ a ∈ l, ∀ b, R a b → S a b) : List.Forall₂ S l r :=
  (forall₂_and_mem h).imp fun a b hab => hi a hab.1.1 b hab.2

/-- Related rows with one value for related members have one row of values. -/
theorem map_eq_of_forall₂ {γ : Type} {R : α → β → Prop} {p : α → γ} {q : β → γ}
    (h : List.Forall₂ R l r) (hpq : ∀ a ∈ l, ∀ b, R a b → p a = q b) : l.map p = r.map q := by
  rw [← List.forall₂_eq_eq_eq, List.forall₂_map_left_iff, List.forall₂_map_right_iff]
  exact forall₂_imp_mem h hpq

/-- Rows that are related to one row in between are related through its members. -/
theorem forall₂_comp {γ : Type} {m : List γ} {R : α → β → Prop} {S : β → γ → Prop}
    (h : List.Forall₂ R l r) (h' : List.Forall₂ S r m) :
    List.Forall₂ (fun a c => ∃ b, R a b ∧ S b c) l m := by
  induction h generalizing m with
  | nil =>
    cases h'
    exact .nil
  | cons hab _ ih =>
    cases h' with
    | cons hbc h' => exact .cons ⟨_, hab, hbc⟩ (ih h')

/-- Rows of one value each are equal where related members are. -/
theorem eq_of_forall₂ {R : α → α → Prop} (h : List.Forall₂ R l l')
    (hR : ∀ a ∈ l, ∀ b, R a b → a = b) : l = l' := by
  rw [← List.forall₂_eq_eq_eq]
  exact forall₂_imp_mem h hR

end Related

/-! ## 4. Rows in another order -/

section Orders

variable {γ : Type}

/-- Rows with the same values in any order are related, the second brought into another order. -/
theorem exists_perm_of_map_perm {r : List β} {p : α → γ} {q : β → γ}
    (h : (l.map p).Perm (r.map q)) :
    ∃ m, List.Forall₂ (fun a b => p a = q b) l m ∧ m.Perm r := by
  have same : List.Forall₂ (fun c b => c = q b) (r.map q) r :=
    List.forall₂_map_left_iff.mpr (List.forall₂_same.mpr fun _ _ => rfl)
  obtain ⟨m, hm, perm⟩ := List.perm_comp_forall₂ h same
  exact ⟨m, List.forall₂_map_left_iff.mp hm, perm⟩

/-- Rows of the same members whose values are all different are one row when the values stand in
one order. -/
theorem eq_of_perm_of_map_eq {p : α → γ} (h : l.Perm l') (hp : l.map p = l'.map p)
    (nodup : (l.map p).Nodup) : l = l' := by
  rw [← List.forall₂_eq_eq_eq, List.forall₂_map_left_iff, List.forall₂_map_right_iff] at hp
  have row := forall₂_and_mem hp
  refine eq_of_forall₂ row fun a ha b hab => ?_
  exact List.inj_on_of_nodup_map nodup ha (h.mem_iff.mpr hab.1.2) hab.2

/-- **The results of a row in another order are the results in another order.** -/
theorem mapM_rel_of_perm {f : α → Option β} (h : l.Perm l') :
    Option.Rel List.Perm (l.mapM f) (l'.mapM f) := by
  induction h with
  | nil => exact .some (.refl _)
  | cons a _ ih =>
    rw [List.mapM_cons, List.mapM_cons]
    refine rel_bind (rel_of_eq rfl) fun b b' hb => ?_
    subst hb
    exact rel_bind ih fun r r' perm => .some (perm.cons b)
  | swap a b l =>
    rw [List.mapM_cons, List.mapM_cons, List.mapM_cons, List.mapM_cons]
    cases f a with
    | none => cases f b <;> exact .none
    | some x =>
      cases f b with
      | none => exact .none
      | some y =>
        cases l.mapM f with
        | none => exact .none
        | some r => exact .some (.swap x y r)
  | trans _ _ ih ih' => exact rel_trans (R := List.Perm) (fun _ _ _ => List.Perm.trans) ih ih'

end Orders

/-! ## 5. First places -/

section Places

variable [BEq α] [LawfulBEq α]

theorem eraseDups_concat (l : List α) (a : α) :
    (l ++ [a]).eraseDups = if a ∈ l then l.eraseDups else l.eraseDups ++ [a] := by
  rw [List.eraseDups_append]
  by_cases h : a ∈ l <;> simp [List.removeAll, h, List.eraseDups_cons]

theorem nodup_eraseDups (l : List α) : l.eraseDups.Nodup := by
  induction l using List.reverseRecOn with
  | nil => exact .nil
  | append_singleton l a ih =>
    rw [eraseDups_concat]
    split
    · exact ih
    · rename_i h
      exact List.concat_eq_append ▸ ih.concat (mt List.mem_eraseDups.mp h)

end Places

end FilterGraph
