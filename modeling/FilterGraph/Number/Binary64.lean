/-!
# Binary floating-point numbers of 64 bits

A number is its interchange word. This file fixes how words are read and how exact quantities are
rounded to words, all in integer arithmetic:

* `decode` reads a word as not-a-number, an infinity, or `± m · 2 ^ q`;
* `nearest` rounds a quotient of two natural numbers to the closest word, halves to the even one,
  and to infinity past the largest finite number;
* `ofDecimal` does so for a decimal `digits · 10 ^ exponent`.
-/

namespace FilterGraph

/-- A 64-bit floating-point number, held as its word. -/
structure Binary64 where
  bits : UInt64
  deriving DecidableEq, Repr, Inhabited

namespace Binary64

/-! ## 1. Reading a word -/

/-- What a word stands for. -/
inductive Reading where
  | notANumber
  | infinite (negative : Bool)
  /-- The number `± m · 2 ^ q`. -/
  | finite (negative : Bool) (m : Nat) (q : Int)
  deriving DecidableEq, Repr

/-- The weight of the sign bit, `2 ^ 63`. -/
def signBit : Nat := 0x8000000000000000

/-- The weight of the bit above the fraction, `2 ^ 52`, which words do not hold. -/
def hiddenBit : Nat := 0x10000000000000

/-- The sign bit of a word. -/
def negative (x : Binary64) : Bool := signBit ≤ x.bits.toNat

/-- The eleven bits of the exponent. -/
def exponentField (x : Binary64) : Nat := x.bits.toNat / hiddenBit % 2048

/-- The 52 bits of the fraction. -/
def fraction (x : Binary64) : Nat := x.bits.toNat % hiddenBit

/-- The reading of a word by its three fields. -/
def decode (x : Binary64) : Reading :=
  if x.exponentField = 2047 then
    if x.fraction = 0 then .infinite x.negative else .notANumber
  else if x.exponentField = 0 then .finite x.negative x.fraction (-1074)
  else .finite x.negative (hiddenBit + x.fraction) (x.exponentField - 1075)

/-- The word with these three fields. -/
def ofFields (negative : Bool) (exponentField fraction : Nat) : Binary64 :=
  ⟨.ofNat ((if negative then signBit else 0) + exponentField * hiddenBit + fraction)⟩

/-- The quiet word that is not a number. -/
def nan : Binary64 := ofFields false 2047 0x8000000000000

/-- The infinity of a sign. -/
def infinity (negative : Bool) : Binary64 := ofFields negative 2047 0

/-- The zero of a sign. -/
def zero (negative : Bool) : Binary64 := ofFields negative 0 0

/-- The integer that the number is, if it is one; a zero of either sign is 0. -/
def integer? (x : Binary64) : Option Int :=
  match x.decode with
  | .finite negative m q =>
    let num := m * Nat.pow 2 q.toNat
    let den := Nat.pow 2 (-q).toNat
    if num % den = 0 then some (if negative then - (num / den : Int) else num / den) else none
  | _ => none

/-! ## 2. Rounding to a word -/

/-- The quotient rounded to the nearest integer, a half to the even neighbour. -/
def roundDiv (num den : Nat) : Nat :=
  let q := num / den
  let r := num % den
  if 2 * r < den then q else if den < 2 * r then q + 1 else q + q % 2

/-- The numerator and denominator of `num / den` divided by `2 ^ q`. -/
def scale (num den : Nat) (q : Int) : Nat × Nat :=
  (num * Nat.pow 2 (-q).toNat, den * Nat.pow 2 q.toNat)

/-- The largest `k` with `2 ^ k ≤ num / den`, for positive operands. -/
def floorLog2 (num den : Nat) : Int :=
  let k : Int := (num.log2 : Int) - den.log2
  let (a, b) := scale num den k
  if a < b then k - 1 else k

/-- The word nearest to `± num / den`. -/
def nearest (negative : Bool) (num den : Nat) : Binary64 :=
  if num = 0 then zero negative
  else
    let q := max (floorLog2 num den - 52) (-1074)
    let (a, b) := scale num den q
    let m := roundDiv a b
    -- A carry out of 53 bits gives `2 ^ 53`, whose fields are those of the next exponent.
    let word := (q + 1074).toNat * hiddenBit + m
    if 2047 * hiddenBit ≤ word then infinity negative
    else ⟨.ofNat ((if negative then signBit else 0) + word)⟩

/-- The number of decimal digits of `n`, at least one. -/
def decimalLength (n : Nat) : Nat := (Nat.toDigits 10 n).length

/-- The word nearest to `± digits · 10 ^ exponent`. Decimals far outside the range of finite
numbers are decided by their length, before any power is computed. -/
def ofDecimal (negative : Bool) (digits : Nat) (exponent : Int) : Binary64 :=
  let size : Int := decimalLength digits + exponent
  if digits = 0 ∨ size < -400 then zero negative
  else if 400 < size then infinity negative
  else nearest negative (digits * Nat.pow 10 exponent.toNat) (Nat.pow 10 (-exponent).toNat)

end Binary64

end FilterGraph
