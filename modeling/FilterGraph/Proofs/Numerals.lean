import FilterGraph.Json.Canonical
import Mathlib.Data.List.TakeWhile

/-!
# Numerals at the front of a text

Decimal numerals tell their numbers apart, also in front of more text, as long as this text does not
begin with a digit.

* `repr_inj`: numerals of different numbers are different;
* `Text.Stops`: a text that can follow a numeral;
* `Text.natural_append_inj`, `Text.integer_append_inj`: a numeral and what follows it can be told
  from the text of both.
-/

namespace FilterGraph

theorem repr_inj {m n : Nat} : Nat.repr m = Nat.repr n ↔ m = n := by
  refine ⟨fun h => ?_, fun h => h ▸ rfl⟩
  have digits := congrArg String.toList h
  rw [Nat.toList_repr, Nat.toList_repr] at digits
  rw [← Nat.ofDigitChars_ten_toDigits (n := m), digits, Nat.ofDigitChars_ten_toDigits]

namespace Text

/-- A text that does not begin with a digit. -/
def Stops (r : List Char) : Prop := ∀ c ∈ r.head?, c.isDigit = false

theorem stops_cons {c : Char} {r : List Char} (h : c.isDigit = false) : Stops (c :: r) := by
  intro d hd
  rw [List.head?_cons, Option.mem_some_iff] at hd
  exact hd ▸ h

theorem isDigit_of_mem_repr {m : Nat} {c : Char} (h : c ∈ (Nat.repr m).toList) :
    c.isDigit = true := by
  rw [Nat.toList_repr] at h
  exact Nat.isDigit_of_mem_toDigits (by decide) (by decide) h

theorem takeWhile_digits_append {ds r : List Char} (hd : ∀ c ∈ ds, c.isDigit = true)
    (hr : Stops r) : (ds ++ r).takeWhile Char.isDigit = ds := by
  rw [List.takeWhile_append_of_pos hd]
  cases r with
  | nil => simp
  | cons c r => simp [hr c rfl]

/-- **A numeral is told from the text that goes on after it.** -/
theorem natural_append_inj {m n : Nat} {r r' : List Char} (hr : Stops r) (hr' : Stops r')
    (h : (Nat.repr m).toList ++ r = (Nat.repr n).toList ++ r') : m = n ∧ r = r' := by
  have digits : (Nat.repr m).toList = (Nat.repr n).toList := by
    rw [← takeWhile_digits_append (fun _ => isDigit_of_mem_repr) hr, h,
      takeWhile_digits_append (fun _ => isDigit_of_mem_repr) hr']
  rw [digits, List.append_cancel_left_eq] at h
  exact ⟨repr_inj.mp (String.toList_inj.mp digits), h⟩

theorem toList_toString_ofNat (m : Nat) : (toString (Int.ofNat m)).toList = (Nat.repr m).toList :=
  rfl

theorem toList_toString_negSucc (m : Nat) :
    (toString (Int.negSucc m)).toList = '-' :: (Nat.repr (m + 1)).toList := by
  have chars : toString (Int.negSucc m) = "-" ++ Nat.repr (m + 1) := rfl
  rw [chars, String.toList_append]
  rfl

theorem repr_ne_nil (m : Nat) : (Nat.repr m).toList ≠ [] := by
  rw [Nat.toList_repr]
  exact Nat.toDigits_ne_nil

/-- A numeral begins with a digit or with the sign. -/
theorem toString_head (i : Int) :
    ∃ c t, (toString i).toList = c :: t ∧ (c = '-' ∨ c.isDigit = true) := by
  cases i with
  | ofNat m =>
    obtain ⟨c, t, heq⟩ := List.exists_cons_of_ne_nil (repr_ne_nil m)
    refine ⟨c, t, (toList_toString_ofNat m).trans heq, .inr (isDigit_of_mem_repr (m := m) ?_)⟩
    rw [heq]
    exact List.mem_cons_self
  | negSucc m => exact ⟨'-', _, toList_toString_negSucc m, .inl rfl⟩

/-- A numeral without a sign is not one with a sign. -/
theorem natural_append_ne (m : Nat) (r s : List Char) : (Nat.repr m).toList ++ r ≠ '-' :: s := by
  obtain ⟨c, t, heq⟩ := List.exists_cons_of_ne_nil (repr_ne_nil m)
  intro h
  rw [heq, List.cons_append, List.cons.injEq] at h
  have digit : c.isDigit = true := isDigit_of_mem_repr (m := m) (heq ▸ List.mem_cons_self)
  rw [h.1] at digit
  exact absurd digit (by decide)

/-- **So is a numeral with a sign.** -/
theorem integer_append_inj {i j : Int} {r r' : List Char} (hr : Stops r) (hr' : Stops r')
    (h : (toString i).toList ++ r = (toString j).toList ++ r') : i = j ∧ r = r' := by
  cases i with
  | ofNat m =>
    cases j with
    | ofNat n =>
      obtain ⟨rfl, hrest⟩ := natural_append_inj hr hr' h
      exact ⟨rfl, hrest⟩
    | negSucc n =>
      rw [toList_toString_negSucc] at h
      exact absurd h (natural_append_ne m r _)
  | negSucc m =>
    rw [toList_toString_negSucc] at h
    cases j with
    | ofNat n => exact absurd h.symm (natural_append_ne n r' _)
    | negSucc n =>
      rw [toList_toString_negSucc, List.cons_append, List.cons_append, List.cons.injEq] at h
      obtain ⟨heq, hrest⟩ := natural_append_inj hr hr' h.2
      exact ⟨by omega, hrest⟩

end Text

end FilterGraph
