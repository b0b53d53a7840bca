import FilterGraph.Number.Binary64

/-!
# The shortest decimal text of a floating-point number

A finite number is written with the fewest significant digits that read back as the same word, and
of those with the digits nearest to it:

* `Interval` is the set of reals that round to the number, its ends included exactly when the
  number is even;
* `shortest` tries 1, 2, … 17 digits; on each decimal grid only the two neighbours of the number
  can be its nearest point in the interval;
* `text` writes the digits positionally while the exponent of the first one is between -4 and 15,
  and otherwise with an exponent of a sign and two digits or more.
-/

namespace FilterGraph.Binary64

/-! ## 1. Shortest digits -/

/-- The decimal `digits · 10 ^ exponent`. -/
structure Decimal where
  digits : Nat
  exponent : Int
  deriving DecidableEq, Repr

/-- A positive number with the reals that round to it, in units of `2 ^ unit`. -/
structure Interval where
  low : Nat
  value : Nat
  high : Nat
  closed : Bool
  unit : Int
  deriving DecidableEq, Repr

/-- The reals that round to `m · 2 ^ q`: half a step each way, but half of the smaller step below
the least number of a binade. -/
def Interval.around (m : Nat) (q : Int) : Interval :=
  { low := 4 * m - (if m = hiddenBit ∧ -1074 < q then 1 else 2)
    value := 4 * m
    high := 4 * m + 2
    closed := m % 2 = 0
    unit := q - 2 }

/-- A point `c · 10 ^ k` of a decimal grid on the scale on which `Interval.onGrid` is exact. -/
def Interval.point (i : Interval) (k : Int) (c : Nat) : Nat :=
  c * Nat.pow 10 k.toNat * Nat.pow 2 (-i.unit).toNat

/-- A multiple of the interval's unit on the same scale. -/
def Interval.onGrid (i : Interval) (k : Int) (a : Nat) : Nat :=
  a * Nat.pow 2 i.unit.toNat * Nat.pow 10 (-k).toNat

/-- Whether `c · 10 ^ k` rounds to the number. -/
def Interval.holds (i : Interval) (k : Int) (c : Nat) : Bool :=
  let p := i.point k c
  let l := i.onGrid k i.low
  let h := i.onGrid k i.high
  if i.closed then l ≤ p && p ≤ h else l < p && p < h

/-- The point of the grid of step `10 ^ k` that is nearest to the number among those that round to
it, if there is one; of two equally near ones the even. -/
def Interval.nearestOn (i : Interval) (k : Int) : Option Nat :=
  let v := i.onGrid k i.value
  let c := v / i.point k 1
  let below := v - i.point k c
  let above := i.point k (c + 1) - v
  match i.holds k c, i.holds k (c + 1) with
  | true, true => some (if below < above then c else if above < below then c + 1 else c + c % 2)
  | true, false => some c
  | false, true => some (c + 1)
  | false, false => none

/-- The exponent of the first decimal digit of `m · 2 ^ q`, for positive `m`. -/
def firstExponent (m : Nat) (q : Int) : Int :=
  let num := m * Nat.pow 2 q.toNat
  let den := Nat.pow 2 (-q).toNat
  if den ≤ num then (decimalLength (num / den) : Int) - 1
  else - (decimalLength ((den + num - 1) / num - 1) : Int)

/-- Drops the trailing zeros of the digits, at most `fuel` of them. -/
def Decimal.trim : Nat → Decimal → Decimal
  | 0, d => d
  | fuel + 1, d =>
    if d.digits % 10 = 0 ∧ d.digits ≠ 0 then trim fuel ⟨d.digits / 10, d.exponent + 1⟩ else d

/-- The shortest decimal that rounds to `m · 2 ^ q`, for positive `m`. -/
def shortest (m : Nat) (q : Int) : Decimal :=
  let i := Interval.around m q
  let e := firstExponent m q
  let grid (n : Nat) : Option Decimal :=
    let k := e - n
    (i.nearestOn k).map fun c => Decimal.trim 20 ⟨c, k⟩
  -- Seventeen digits always suffice.
  ((List.range 17).findSome? grid).getD ⟨m, 0⟩

/-! ## 2. Text -/

/-- The text of digits `ds` whose first one has exponent `e`. -/
def layout (ds : List Char) (e : Int) : List Char :=
  if -4 ≤ e ∧ e < 0 then
    '0' :: '.' :: List.replicate (-e - 1).toNat '0' ++ ds
  else if 0 ≤ e ∧ e < 16 then
    let whole := e.toNat + 1
    ds.take whole ++ List.replicate (whole - ds.length) '0' ++ '.' ::
      (if ds.length ≤ whole then ['0'] else ds.drop whole)
  else
    let exponent := Nat.toDigits 10 e.natAbs
    ds.take 1 ++ (if ds.length ≤ 1 then [] else '.' :: ds.drop 1) ++
      'e' :: (if e < 0 then '-' else '+') :: List.replicate (2 - exponent.length) '0' ++ exponent

/-- The text of a number. -/
def text (x : Binary64) : String :=
  match x.decode with
  | .notANumber => "nan"
  | .infinite negative => if negative then "-inf" else "inf"
  | .finite negative m q =>
    let sign := if negative then "-" else ""
    if m = 0 then sign ++ "0.0"
    else
      let d := shortest m q
      let ds := Nat.toDigits 10 d.digits
      sign ++ String.ofList (layout ds (d.exponent + ds.length - 1))

end FilterGraph.Binary64
