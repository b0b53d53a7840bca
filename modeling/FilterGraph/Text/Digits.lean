/-!
# Decimal digits of all scripts, and integers written with them

Each script that has decimal digits has them as ten neighbours in rising order, so the table
`zeroDigits` of the zeros fixes all of them. `readInteger?` reads an optional sign and a row of
such digits, in which single underscores may stand between two digits.
-/

namespace FilterGraph.Text

/-- The code points of the digits of value zero (general category Nd in Unicode 14). -/
def zeroDigits : List Nat := [
  0x30, 0x660, 0x6f0, 0x7c0, 0x966, 0x9e6, 0xa66, 0xae6, 0xb66, 0xbe6, 0xc66, 0xce6, 0xd66,
  0xde6, 0xe50, 0xed0, 0xf20, 0x1040, 0x1090, 0x17e0, 0x1810, 0x1946, 0x19d0, 0x1a80, 0x1a90,
  0x1b50, 0x1bb0, 0x1c40, 0x1c50, 0xa620, 0xa8d0, 0xa900, 0xa9d0, 0xa9f0, 0xaa50, 0xabf0, 0xff10,
  0x104a0, 0x10d30, 0x11066, 0x110f0, 0x11136, 0x111d0, 0x112f0, 0x11450, 0x114d0, 0x11650,
  0x116c0, 0x11730, 0x118e0, 0x11950, 0x11c50, 0x11d50, 0x11da0, 0x16a60, 0x16ac0, 0x16b50,
  0x1d7ce, 0x1d7d8, 0x1d7e2, 0x1d7ec, 0x1d7f6, 0x1e140, 0x1e2f0, 0x1e950, 0x1fbf0]

/-- The value of a decimal digit of any script. -/
def digitValue? (c : Char) : Option Nat :=
  (zeroDigits.find? fun z => z ≤ c.toNat && c.toNat < z + 10).map (c.toNat - ·)

/-- How many decimal digits a text holds. -/
def countDigits (s : List Char) : Nat := s.countP fun c => (digitValue? c).isSome

/-- The number that a row of digits continues from `acc`; single underscores part digits. -/
def readDigits? (acc : Nat) : List Char → Option Nat
  | [] => some acc
  | '_' :: c :: r => (digitValue? c).bind fun d => readDigits? (10 * acc + d) r
  | c :: r => (digitValue? c).bind fun d => readDigits? (10 * acc + d) r

/-- A row of digits with at least one digit, which starts with a digit. -/
def readNatural? : List Char → Option Nat
  | [] => none
  | c :: r => (digitValue? c).bind fun d => readDigits? d r

/-- An integer with an optional sign. -/
def readInteger? : List Char → Option Int
  | '-' :: r => (readNatural? r).map fun n => - (n : Int)
  | '+' :: r => (readNatural? r).map Int.ofNat
  | r => (readNatural? r).map Int.ofNat

end FilterGraph.Text
