import HardwareSigner.Decimal.Binary64
/-!
The shortest decimal that reads back as a given floating-point number: of those with the fewest
digits the nearest, and of two equally near the even one.
-/

namespace HardwareSigner.Binary64

/-- `digits * 10 ^ exponent`. -/
structure Decimal where
  digits : Nat
  exponent : Int

/-- Every magnitude times `10 ^ lift` has more than twenty digits before the point. -/
def lift : Nat := 400

/-- The magnitude and the ends of the interval that rounds to it, all times `den`. -/
structure Interval where
  low : Nat
  value : Nat
  high : Nat
  den : Nat
  closed : Bool

def interval (rank : Nat) : Interval :=
  let m := mantissa rank
  let step := 2 ^ shift rank * 10 ^ lift
  let down := if m = 2 ^ 52 ∧ 0 < shift rank then 1 else 2
  ⟨(4 * m - down) * step, 4 * m * step, (4 * m + 2) * step, 4 * unit, m % 2 = 0⟩

def Interval.holds (i : Interval) (x : Nat) : Bool :=
  if i.closed then i.low ≤ x && x ≤ i.high else i.low < x && x < i.high

/-- The nearest of the two multiples of `10 ^ place` around the value that read back. -/
def Interval.pick? (i : Interval) (place : Nat) : Option Nat :=
  let grid := 10 ^ place * i.den
  let below := i.value / grid
  let gap := 2 * (i.value % grid)
  match i.holds (below * grid), i.holds ((below + 1) * grid) with
  | true, true =>
    some (if gap < grid ∨ (gap = grid ∧ below % 2 = 0) then below else below + 1)
  | true, false => some below
  | false, true => some (below + 1)
  | false, false => none

/-- Moves trailing zeros into the exponent. -/
def trimZeros : (fuel : Nat) → Decimal → Decimal
  | 0, d => d
  | fuel + 1, d =>
    if d.digits % 10 = 0 then trimZeros fuel ⟨d.digits / 10, d.exponent + 1⟩ else d

/-- Tries grids of one, two, … digits. -/
def search (i : Interval) (size : Nat) : (left : Nat) → Decimal
  | 0 => ⟨i.value / i.den, -lift⟩
  | left + 1 =>
    let place := size - (17 - left)
    match i.pick? place with
    | some digits => trimZeros 20 ⟨digits, (place : Int) - lift⟩
    | none => search i size left

def shortest (rank : Nat) : Decimal :=
  let i := interval rank
  search i (Nat.toDigits 10 (i.value / i.den)).length 17

def fraction (cs : List Char) : List Char :=
  if cs.isEmpty then ['0'] else cs

/--
Places the point: numbers from `10 ^ -5` up to `10 ^ 16` are written out with at least one
decimal, others with one digit before the point and an exponent.
-/
def place (d : Decimal) : List Char :=
  let cs := Nat.toDigits 10 d.digits
  let top : Int := d.exponent + cs.length - 1
  if 0 ≤ top ∧ top < 16 then
    let whole := top.toNat + 1
    (cs ++ List.replicate (whole - cs.length) '0').take whole ++ '.' :: fraction (cs.drop whole)
  else if -5 ≤ top ∧ top < 0 then
    '0' :: '.' :: List.replicate (-top - 1).toNat '0' ++ cs
  else
    let head := cs.take 1 ++ (if cs.length = 1 then [] else '.' :: cs.drop 1)
    head ++ 'e' :: (if top < 0 then '-' else '+') :: Nat.toDigits 10 top.natAbs

def toChars (x : Binary64) : List Char :=
  (if x.negative then ['-'] else []) ++
    (if x.rank = 0 then ['0', '.', '0'] else place (shortest x.rank))

end HardwareSigner.Binary64
