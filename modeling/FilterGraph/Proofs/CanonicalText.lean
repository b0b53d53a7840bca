import FilterGraph.Json.Reader
import FilterGraph.Proofs.Numerals
import Mathlib.Data.List.Forall2

/-!
# The canonical text of a value tells the value

Two values without floating-point numbers that have one canonical text are the same up to the order
of object members.

* `Json.Exact`: a value without floating-point numbers;
* `Json.SameAs`: values that differ at most in the order of object members, at any depth;
* `stringChars_append_inj`: a written string is told from the text that goes on after it, because
  the reader of JSON texts gives it back;
* `sameAs_of_append_eq`: so is a written value, up to the order of members;
* **`sameAs_of_canonical_eq`**: values of one canonical text are the same.
-/

namespace FilterGraph.Json

/-! ## 1. Strings -/

theorem hexValue?_hexDigit : ∀ d < 16, hexValue? (Text.hexDigit d) = some d := by decide

/-- Four digits read back. -/
theorem readHex4?_hexDigits {n : Nat} (h : n < 65536) (r : List Char) :
    readHex4? (Text.hexDigits 4 n ++ r) = some (n, r) := by
  have d₀ := hexValue?_hexDigit (n % 16) (by omega)
  have d₁ := hexValue?_hexDigit (n / 16 % 16) (by omega)
  have d₂ := hexValue?_hexDigit (n / 16 / 16 % 16) (by omega)
  have d₃ := hexValue?_hexDigit (n / 16 / 16 / 16 % 16) (by omega)
  have digits : Text.hexDigits 4 n ++ r = Text.hexDigit (n / 16 / 16 / 16 % 16) ::
      Text.hexDigit (n / 16 / 16 % 16) :: Text.hexDigit (n / 16 % 16) ::
        Text.hexDigit (n % 16) :: r := rfl
  have value : ((n / 16 / 16 / 16 % 16 * 16 + n / 16 / 16 % 16) * 16 + n / 16 % 16) * 16 + n % 16 =
      n := by omega
  simp only [digits, readHex4?, d₀, d₁, d₂, d₃, Option.bind_eq_bind, Option.bind_some, value]

/-- An escaped control character reads back. -/
theorem readUnits?_control {c : Char} (h : c.toNat < 0x20) (r : List Char) :
    readUnits? (Text.hexDigits 4 c.toNat ++ r) = some (c, r) := by
  have low : ¬ (0xd800 ≤ c.toNat ∧ c.toNat < 0xdc00) := by omega
  have high : ¬ (0xdc00 ≤ c.toNat ∧ c.toNat < 0xe000) := by omega
  rw [readUnits?, readHex4?_hexDigits (by omega)]
  simp only [Option.bind_eq_bind, Option.bind_some, if_neg low, if_neg high, Char.ofNat_toNat]

/-- **Every character of a string reads back**, escaped or not. -/
theorem readString?_escapedChar (fuel : Nat) (acc : List Char) (c : Char) (r : List Char) :
    readString? (fuel + 1) acc (escapedChar c ++ r) = readString? fuel (c :: acc) r := by
  unfold escapedChar
  split
  · subst_vars; simp [readString?]
  split
  · subst_vars; simp [readString?]
  split
  · subst_vars; simp [readString?]
  split
  · subst_vars; simp [readString?]
  split
  · subst_vars; simp [readString?]
  split
  · subst_vars; simp [readString?]
  split
  · subst_vars; simp [readString?]
  split
  · rename_i h
    simp only [List.cons_append, readString?, readUnits?_control h]
  · rename_i hq hb _ _ _ _ _ hc
    have plain : ¬ (c = '\\' ∨ c.toNat < 0x20) := fun h => h.elim hb hc
    rw [List.singleton_append, readString?, if_neg plain]
    -- the other rules of the reader want a quote or a backslash in front
    all_goals simp [hq, hb]

/-- A string between its quotes reads back, and the reader stops behind it. -/
theorem readString?_escaped (fuel : Nat) (cs acc r : List Char) (h : cs.length < fuel) :
    readString? fuel acc (cs.flatMap escapedChar ++ '"' :: r) =
      some (.ofList (acc.reverse ++ cs), r) := by
  induction cs generalizing fuel acc with
  | nil =>
    obtain ⟨fuel, rfl⟩ := Nat.exists_eq_succ_of_ne_zero (Nat.ne_of_gt h)
    simp [readString?]
  | cons c cs ih =>
    obtain ⟨fuel, rfl⟩ := Nat.exists_eq_succ_of_ne_zero (Nat.ne_zero_of_lt h)
    rw [List.flatMap_cons, List.append_assoc, readString?_escapedChar,
      ih fuel (c :: acc) (Nat.lt_of_succ_lt_succ h), List.reverse_cons, List.append_assoc]
    rfl

/-- **A string is told from the text that goes on after it.** -/
theorem stringChars_append_inj {s t : String} {r r' : List Char}
    (h : stringChars s ++ r = stringChars t ++ r') : s = t ∧ r = r' := by
  have body : s.toList.flatMap escapedChar ++ '"' :: r =
      t.toList.flatMap escapedChar ++ '"' :: r' := by
    simpa [stringChars] using h
  have left := readString?_escaped (s.toList.length + t.toList.length + 1) s.toList [] r
    (by omega)
  have right := readString?_escaped (s.toList.length + t.toList.length + 1) t.toList [] r'
    (by omega)
  rw [body, right] at left
  simpa [eq_comm] using left

/-! ## 2. Values up to the order of members -/

/-- A value without floating-point numbers. -/
inductive Exact : Json → Prop where
  | null : Exact .null
  | bool (b : Bool) : Exact (.bool b)
  | int (i : Int) : Exact (.int i)
  | string (s : String) : Exact (.string s)
  | array {items : List Json} (h : ∀ v ∈ items, Exact v) : Exact (.array items)
  | object {members : List (String × Json)} (h : ∀ m ∈ members, Exact m.2) :
      Exact (.object members)

/-- Values that differ at most in the order of object members, at any depth. -/
inductive SameAs : Json → Json → Prop where
  | null : SameAs .null .null
  | bool (b : Bool) : SameAs (.bool b) (.bool b)
  | int (i : Int) : SameAs (.int i) (.int i)
  | string (s : String) : SameAs (.string s) (.string s)
  | array {xs ys : List Json} (h : List.Forall₂ SameAs xs ys) : SameAs (.array xs) (.array ys)
  | object {ms as bs ns : List (String × Json)} (hm : ms.Perm as) (hn : ns.Perm bs)
      (names : as.map (·.1) = bs.map (·.1))
      (values : List.Forall₂ SameAs (as.map (·.2)) (bs.map (·.2))) :
      SameAs (.object ms) (.object ns)

/-! ## 3. Values as texts -/

/-- The kind of value that a text begins with. -/
def kindOfHead (c : Char) : String :=
  if c = 'n' then "NoneType"
  else if c = 't' ∨ c = 'f' then "bool"
  else if c = '"' then "str"
  else if c = '[' then "list"
  else if c = '{' then "dict"
  else if c = '-' ∨ c.isDigit then "int"
  else ""

theorem kindOfHead_integer {c : Char} (h : c = '-' ∨ c.isDigit = true) :
    kindOfHead c = "int" := by
  have other : ∀ d : Char, d ≠ '-' → d.isDigit = false → c ≠ d := by
    rintro d hd hdigit rfl
    rcases h with h | h
    · exact hd h
    · rw [hdigit] at h
      cases h
  unfold kindOfHead
  rw [if_neg (other 'n' (by decide) (by decide)), if_neg, if_neg (other '"' (by decide) (by decide)),
    if_neg (other '[' (by decide) (by decide)), if_neg (other '{' (by decide) (by decide)), if_pos h]
  exact fun h => h.elim (other 't' (by decide) (by decide)) (other 'f' (by decide) (by decide))

/-- **A text begins like the kind of its value.** -/
theorem canonicalChars_head {v : Json} (hv : v.Exact) :
    ∃ c t, v.canonicalChars = c :: t ∧ kindOfHead c = v.kindName := by
  cases hv with
  | null => exact ⟨_, _, rfl, rfl⟩
  | bool b => cases b <;> exact ⟨_, _, rfl, rfl⟩
  | int i =>
    obtain ⟨c, t, heq, hc⟩ := Text.toString_head i
    exact ⟨c, t, by rw [canonicalChars, heq], kindOfHead_integer hc⟩
  | string s => exact ⟨_, _, by rw [canonicalChars, stringChars, List.cons_append], rfl⟩
  | array h => exact ⟨_, _, by rw [canonicalChars, List.cons_append], rfl⟩
  | object h => exact ⟨_, _, by rw [canonicalChars, List.cons_append], rfl⟩

section Rows

variable {α : Type} {f : α → List Char} {R : α → α → Prop} {z : Char} {r r' : List Char}

theorem commaJoin_cons (t : List Char) (ts : List (List Char)) :
    commaJoin (t :: ts) = t ++ ts.flatMap (',' :: ·) := by
  induction ts generalizing t with
  | nil => simp [commaJoin]
  | cons u ts ih => rw [commaJoin, ih, List.flatMap_cons, List.cons_append]

/-- What follows the first text of a row begins with a comma or with the end of the row. -/
theorem stops_tail (hz : z.isDigit = false) (xs : List α) :
    Text.Stops ((xs.map f).flatMap (',' :: ·) ++ z :: r) := by
  cases xs with
  | nil => exact Text.stops_cons hz
  | cons x xs => exact Text.stops_cons (by decide)

/-- The texts of a row after the first are told from their text. -/
theorem tail_append_inj (hz : z.isDigit = false) (hcomma : z ≠ ',') {xs ys : List α}
    (each : ∀ x ∈ xs, ∀ y ∈ ys, ∀ r r', Text.Stops r → Text.Stops r' →
      f x ++ r = f y ++ r' → R x y ∧ r = r')
    (h : (xs.map f).flatMap (',' :: ·) ++ z :: r = (ys.map f).flatMap (',' :: ·) ++ z :: r') :
    List.Forall₂ R xs ys ∧ r = r' := by
  induction xs generalizing ys with
  | nil =>
    cases ys with
    | nil =>
      rw [List.map_nil, List.flatMap_nil, List.nil_append, List.nil_append, List.cons.injEq] at h
      exact ⟨.nil, h.2⟩
    | cons y ys =>
      rw [List.map_nil, List.flatMap_nil, List.nil_append, List.map_cons, List.flatMap_cons,
        List.cons_append, List.cons_append, List.cons.injEq] at h
      exact absurd h.1 hcomma
  | cons x xs ih =>
    cases ys with
    | nil =>
      rw [List.map_nil, List.flatMap_nil, List.nil_append, List.map_cons, List.flatMap_cons,
        List.cons_append, List.cons_append, List.cons.injEq] at h
      exact absurd h.1.symm hcomma
    | cons y ys =>
      rw [List.map_cons, List.map_cons, List.flatMap_cons, List.flatMap_cons, List.cons_append,
        List.cons_append, List.cons_append, List.cons_append, List.cons.injEq, List.append_assoc,
        List.append_assoc] at h
      obtain ⟨hxy, hrest⟩ := each x List.mem_cons_self y List.mem_cons_self _ _
        (stops_tail hz xs) (stops_tail hz ys) h.2
      obtain ⟨hrows, hr⟩ := ih (fun a ha b hb => each a (List.mem_cons_of_mem _ ha) b
        (List.mem_cons_of_mem _ hb)) hrest
      exact ⟨.cons hxy hrows, hr⟩

/-- **The texts of a row are told from its text**, when each of them is told from what goes on after
it and none begins like the end of the row. -/
theorem commaJoin_append_inj (hz : z.isDigit = false) (hcomma : z ≠ ',') {xs ys : List α}
    (each : ∀ x ∈ xs, ∀ y ∈ ys, ∀ r r', Text.Stops r → Text.Stops r' →
      f x ++ r = f y ++ r' → R x y ∧ r = r')
    (inside : ∀ x ∈ xs ++ ys, ∃ c t, f x = c :: t ∧ c ≠ z)
    (h : commaJoin (xs.map f) ++ z :: r = commaJoin (ys.map f) ++ z :: r') :
    List.Forall₂ R xs ys ∧ r = r' := by
  cases xs with
  | nil =>
    cases ys with
    | nil => exact tail_append_inj hz hcomma each h
    | cons y ys =>
      obtain ⟨c, t, heq, hc⟩ := inside y (by simp)
      rw [List.map_cons, commaJoin_cons, heq] at h
      exact absurd (List.cons.inj h).1.symm hc
  | cons x xs =>
    cases ys with
    | nil =>
      obtain ⟨c, t, heq, hc⟩ := inside x (by simp)
      rw [List.map_cons, commaJoin_cons, heq] at h
      exact absurd (List.cons.inj h).1 hc
    | cons y ys =>
      rw [List.map_cons, List.map_cons, commaJoin_cons, commaJoin_cons, List.append_assoc,
        List.append_assoc] at h
      obtain ⟨hxy, hrest⟩ := each x List.mem_cons_self y List.mem_cons_self _ _
        (stops_tail hz xs) (stops_tail hz ys) h
      obtain ⟨hrows, hr⟩ := tail_append_inj hz hcomma (fun a ha b hb => each a
        (List.mem_cons_of_mem _ ha) b (List.mem_cons_of_mem _ hb)) hrest
      exact ⟨.cons hxy hrows, hr⟩

end Rows

/-! ## 4. Reading values back -/

theorem canonicalItems_eq_map (items : List Json) :
    canonicalItems items = items.map canonicalChars := by
  induction items with
  | nil => rfl
  | cons v items ih => rw [canonicalItems, ih, List.map_cons]

theorem canonicalMembers_eq_map (members : List (String × Json)) :
    canonicalMembers members = members.map fun m => (m.1, m.2.canonicalChars) := by
  induction members with
  | nil => rfl
  | cons m members ih => rw [canonicalMembers, ih, List.map_cons]

/-- One member of an object. -/
def memberChars (m : String × Json) : List Char := stringChars m.1 ++ ':' :: m.2.canonicalChars

/-- **The members of an object are written in the order of their names.** -/
theorem canonicalChars_object (members : List (String × Json)) :
    canonicalChars (.object members) =
      '{' :: commaJoin ((sortMembers members).map memberChars) ++ ['}'] := by
  have sorted : sortMembers (canonicalMembers members) =
      (sortMembers members).map fun m => (m.1, m.2.canonicalChars) := by
    rw [canonicalMembers_eq_map, sortMembers, sortMembers]
    refine (List.map_mergeSort ?_).symm
    intros
    rfl
  rw [canonicalChars, sorted, List.map_map]
  rfl

theorem sortMembers_perm {β : Type} (members : List (String × β)) :
    (sortMembers members).Perm members := List.mergeSort_perm _ _

theorem kindName_eq_of_append_eq {v w : Json} (hv : v.Exact) (hw : w.Exact) {r r' : List Char}
    (h : v.canonicalChars ++ r = w.canonicalChars ++ r') : v.kindName = w.kindName := by
  obtain ⟨c, t, heq, hc⟩ := canonicalChars_head hv
  obtain ⟨d, u, heq', hd⟩ := canonicalChars_head hw
  rw [heq, heq', List.cons_append, List.cons_append, List.cons.injEq] at h
  rw [← hc, ← hd, h.1]

/-- The items of an array do not begin like its end. -/
theorem item_head {v : Json} (hv : v.Exact) : ∃ c t, v.canonicalChars = c :: t ∧ c ≠ ']' := by
  obtain ⟨c, t, heq, hc⟩ := canonicalChars_head hv
  refine ⟨c, t, heq, ?_⟩
  rintro rfl
  cases hv <;> exact absurd hc (by simp [kindOfHead, kindName])

/-- Members of one name whose values are the same. -/
def SameMember (m n : String × Json) : Prop := m.1 = n.1 ∧ SameAs m.2 n.2

/-- Objects are the same when their members are, one by one, in some order of each. -/
theorem SameAs.of_members {members members' row row' : List (String × Json)}
    (perm : members.Perm row) (perm' : members'.Perm row')
    (h : List.Forall₂ SameMember row row') : SameAs (.object members) (.object members') := by
  have names : List.Forall₂ (· = ·) (row.map (·.1)) (row'.map (·.1)) :=
    List.forall₂_map_left_iff.mpr (List.forall₂_map_right_iff.mpr (h.imp fun _ _ hmn => hmn.1))
  have values : List.Forall₂ SameAs (row.map (·.2)) (row'.map (·.2)) :=
    List.forall₂_map_left_iff.mpr (List.forall₂_map_right_iff.mpr (h.imp fun _ _ hmn => hmn.2))
  rw [List.forall₂_eq_eq_eq] at names
  exact .object perm perm' names values

/-- The members of an object do not begin like its end. -/
theorem memberChars_head (m : String × Json) : ∃ c t, memberChars m = c :: t ∧ c ≠ '}' :=
  ⟨'"', _, by rw [memberChars, stringChars, List.cons_append, List.cons_append], by decide⟩

/-- A member is told from its text and what goes on after it, when its value is. -/
theorem memberChars_append_inj {m n : String × Json} {r r' : List Char}
    (value : m.2.canonicalChars ++ r = n.2.canonicalChars ++ r' → SameAs m.2 n.2 ∧ r = r')
    (h : memberChars m ++ r = memberChars n ++ r') : SameMember m n ∧ r = r' := by
  rw [memberChars, memberChars, List.append_assoc, List.append_assoc] at h
  obtain ⟨hname, hvalue⟩ := stringChars_append_inj h
  obtain ⟨hsame, hrest⟩ := value (List.cons.inj hvalue).2
  exact ⟨⟨hname, hsame⟩, hrest⟩

/-- **A value is told from its text and what goes on after it**, up to the order of members. The
induction is on the first value; the second has to be of the same kind, by its first character. -/
theorem sameAs_of_append_eq {v w : Json} (hv : v.Exact) (hw : w.Exact) {r r' : List Char}
    (hr : Text.Stops r) (hr' : Text.Stops r')
    (h : v.canonicalChars ++ r = w.canonicalChars ++ r') : v.SameAs w ∧ r = r' := by
  induction hv generalizing w r r' with
  | null =>
    have kinds := kindName_eq_of_append_eq .null hw h
    cases hw with
    | null => exact ⟨.null, List.append_cancel_left h⟩
    | _ => simp [kindName] at kinds
  | bool b =>
    have kinds := kindName_eq_of_append_eq (.bool b) hw h
    cases hw with
    | bool b' =>
      cases b <;> cases b'
      · exact ⟨.bool false, List.append_cancel_left h⟩
      · simp [canonicalChars] at h
      · simp [canonicalChars] at h
      · exact ⟨.bool true, List.append_cancel_left h⟩
    | _ => simp [kindName] at kinds
  | int i =>
    have kinds := kindName_eq_of_append_eq (.int i) hw h
    cases hw with
    | int j =>
      rw [canonicalChars, canonicalChars] at h
      obtain ⟨rfl, hrest⟩ := Text.integer_append_inj hr hr' h
      exact ⟨.int i, hrest⟩
    | _ => simp [kindName] at kinds
  | string s =>
    have kinds := kindName_eq_of_append_eq (.string s) hw h
    cases hw with
    | string t =>
      rw [canonicalChars, canonicalChars] at h
      obtain ⟨rfl, hrest⟩ := stringChars_append_inj h
      exact ⟨.string s, hrest⟩
    | _ => simp [kindName] at kinds
  | @array items hitems ih =>
    have kinds := kindName_eq_of_append_eq (.array hitems) hw h
    cases hw with
    | @array items' hitems' =>
      have row : commaJoin (items.map canonicalChars) ++ ']' :: r =
          commaJoin (items'.map canonicalChars) ++ ']' :: r' := by
        simpa [canonicalChars, canonicalItems_eq_map] using h
      obtain ⟨hrow, hrest⟩ := commaJoin_append_inj (R := SameAs) (by decide) (by decide)
        (fun x hx y hy _ _ hs hs' heq => ih x hx (hitems' y hy) hs hs' heq)
        (fun x hx => item_head ((List.mem_append.mp hx).elim (hitems x) (hitems' x))) row
      exact ⟨.array hrow, hrest⟩
    | _ => simp [kindName] at kinds
  | @object members hmembers ih =>
    have kinds := kindName_eq_of_append_eq (.object hmembers) hw h
    cases hw with
    | @object members' hmembers' =>
      have perm := sortMembers_perm members
      have perm' := sortMembers_perm members'
      have row : commaJoin ((sortMembers members).map memberChars) ++ '}' :: r =
          commaJoin ((sortMembers members').map memberChars) ++ '}' :: r' := by
        simpa [canonicalChars_object] using h
      obtain ⟨hrow, hrest⟩ := commaJoin_append_inj (R := SameMember) (by decide) (by decide)
        (fun m hm n hn s s' hs hs' heq => memberChars_append_inj (fun hvalue => ih m
          (perm.mem_iff.mp hm) (hmembers' n (perm'.mem_iff.mp hn)) hs hs' hvalue) heq)
        (fun m _ => memberChars_head m) row
      exact ⟨.of_members perm.symm perm'.symm hrow, hrest⟩
    | _ => simp [kindName] at kinds

/-- **Values of one canonical text are the same** up to the order of members. -/
theorem sameAs_of_canonical_eq {v w : Json} (hv : v.Exact) (hw : w.Exact)
    (h : v.canonical = w.canonical) : v.SameAs w := by
  have chars : v.canonicalChars ++ [] = w.canonicalChars ++ [] := by
    rw [List.append_nil, List.append_nil]
    exact String.ofList_injective h
  exact (sameAs_of_append_eq hv hw (by simp [Text.Stops]) (by simp [Text.Stops]) chars).1

end FilterGraph.Json
