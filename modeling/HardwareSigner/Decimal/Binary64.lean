import HardwareSigner.Power
/-!
Finite binary floating-point numbers with 53 bits of precision, and rounding to them.  A magnitude
is kept as its rank among all magnitudes, which is also its bit pattern without the sign.
-/

namespace HardwareSigner

/-- The rank of the first magnitude that is too large. -/
def Binary64.limit : Nat := 2047 * 2 ^ 52

structure Binary64 where
  negative : Bool
  rank : Nat
  finite : rank < Binary64.limit
  deriving DecidableEq

namespace Binary64

/-- The nearest integer to `num / den`, the even one of two. -/
def roundDiv (num den : Nat) : Nat :=
  let q := num / den
  let twice := 2 * (num % den)
  if twice < den then q
  else if den < twice then q + 1
  else if q % 2 = 0 then q else q + 1

/-- All magnitudes are multiples of `1 / unit`. -/
def unit : Nat := 2 ^ 1074

/-- A magnitude of the given rank is `mantissa rank * 2 ^ shift rank / unit`. -/
def mantissa (rank : Nat) : Nat :=
  if rank < 2 ^ 52 then rank else 2 ^ 52 + rank % 2 ^ 52

def shift (rank : Nat) : Nat :=
  rank / 2 ^ 52 - 1

/-- The magnitude in units. -/
def units (rank : Nat) : Nat :=
  mantissa rank * 2 ^ shift rank

/-- The rank of the magnitude nearest to `num / den`; it may reach the limit. -/
def nearest (num den : Nat) : Nat :=
  let scaled := num * unit
  let guess := scaled.log2 - den.log2 - 53
  let k := if scaled / (den * 2 ^ guess) < 2 ^ 53 then guess else guess + 1
  k * 2 ^ 52 + roundDiv scaled (den * 2 ^ k)

/-- The rank of a power of ten. -/
def tenTo (exponent : Nat) : Nat :=
  nearest (10 ^ exponent) 1

def product (a b : Nat) : Nat :=
  nearest (units a * units b) (unit * unit)

def quotient (a b : Nat) : Nat :=
  nearest (units a) (units b)

/--
The rank of `significand * 10 ^ exponent`, rounded after the conversion of the significand and
after each scaling by a power of ten; `none` when it is too large.
-/
def scale? (significand : Nat) (exponent : Int) : Option Nat :=
  let start := nearest significand 1
  if 308 < exponent then
    if significand = 0 then some 0 else none
  else if 0 ≤ exponent then
    let rank := product start (tenTo exponent.toNat)
    if rank < limit then some rank else none
  else if -308 ≤ exponent then some (quotient start (tenTo (-exponent).toNat))
  else if -616 ≤ exponent then
    some (quotient (quotient start (tenTo 308)) (tenTo (-exponent - 308).toNat))
  else some 0

def ofParts? (negative : Bool) (significand : Nat) (exponent : Int) : Option Binary64 :=
  (scale? significand exponent).bind fun rank =>
    if h : rank < limit then some ⟨negative, rank, h⟩ else none

end Binary64

end HardwareSigner
