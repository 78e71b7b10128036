import HardwareSigner.Decimal.Shortest
/-! JSON numbers: whole numbers of 64 bits, and floating-point numbers for all others. -/

namespace HardwareSigner.Json

inductive Number where
  | integer (value : Int) (fits : -2 ^ 63 ≤ value ∧ value < 2 ^ 64)
  | double (value : Binary64)
  deriving DecidableEq

/-- A number as it is written: digits before and after the point, and an exponent. -/
structure Numeral where
  negative : Bool
  whole : List Nat
  fraction : List Nat
  exponent : Option Int
  deriving DecidableEq

/-- Digits taken into a 64-bit number until one no longer fits, and how many were left over. -/
def gather : (acc : Nat) → List Nat → Nat × Nat
  | acc, [] => (acc, 0)
  | acc, d :: ds => if acc * 10 + d < 2 ^ 64 then gather (acc * 10 + d) ds else (acc, ds.length + 1)

namespace Numeral

/-- The floating-point reading, with digits that no longer fit left out. -/
def toDouble? (n : Numeral) : Option Binary64 :=
  let whole := gather 0 n.whole
  let all := gather whole.1 n.fraction
  let point : Int := (whole.2 : Int) - ((n.fraction.length - all.2 : Nat) : Int)
  Binary64.ofParts? n.negative all.1 (point + n.exponent.getD 0)

/-- `none` for a number too large for floating point. -/
def toNumber? (n : Numeral) : Option Number :=
  let whole := gather 0 n.whole
  let value : Int := if n.negative then -whole.1 else whole.1
  if h : -2 ^ 63 ≤ value ∧ value < 2 ^ 64 then
    if n.fraction.isEmpty && n.exponent.isNone && whole.2 == 0 && !(n.negative && whole.1 == 0)
    then some (.integer value h)
    else n.toDouble?.map .double
  else n.toDouble?.map .double

end Numeral

namespace Number

def ofNat (n : Nat) (h : n < 2 ^ 64) : Number :=
  .integer n (by omega)

def toChars : Number → List Char
  | integer z _ => (if z < 0 then ['-'] else []) ++ Nat.toDigits 10 z.natAbs
  | double x => x.toChars

/-- The value of a whole number. -/
def toInt? : Number → Option Int
  | integer z _ => some z
  | double _ => none

end Number

end HardwareSigner.Json
